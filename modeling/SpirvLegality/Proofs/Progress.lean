import SpirvLegality.Listing.Progress
import SpirvLegality.Proofs.Scanning

/-!
# Reading token by token

Taking the tokens of a line in turn is reading the line (`Progress.foldlM_line`), so taking the
tokens of a text is reading the text (`Progress.foldlM_tokensAt`, `Progress.parse_eq_foldlM`). The
tokens that are taken tile the bytes of the text, so there are finitely many
(`Progress.tokens_tile`).
-/

namespace SpirvLegality.Listing.Progress

/-! ## The tokens of a line -/

variable (names : NameTable) (units : UnitBuilder) (first : Token)
  (result : Option ValueId)

/-- Behind a name an equals sign has to stand. -/
theorem step_named (name : String) (t : Token) :
    step ⟨names, units, .named first name⟩ t =
      if t.kind = .equals then .ok ⟨names, units, .equated first name⟩
      else .error (.missingEquals first.line name t.kind) :=
  rfl

/-- The token behind an equals sign comes after the name is defined. -/
theorem step_equated (name : String) (t : Token) :
    step ⟨names, units, .equated first name⟩ t =
      match names.define? name with
      | none => .error (.redefined first.line name)
      | some r =>
        takeOpcode ⟨r.2, units, .equated first name⟩ first (some r.1) t := by
  rw [step]
  dsimp only
  cases names.define? name <;> rfl

/-- What is read when a line has ended, whose operation is known: its instruction is placed. -/
def ofOperation (stop : UInt32) (r : NameTable × Opcode × List Operand) :
    Except ReadError Progress :=
  (units.place first.line (result.bind r.1.nameOf?)
    (.of r.2.1 result r.2.2 ⟨first.span.start, stop⟩)).map
      fun units => ⟨r.1, units, .start⟩

/-- Taking operands and the end of their line in turn is reading the operands. -/
theorem foldlM_operands (opcode : Opcode) (before : List Operand) {words : List Token}
    (hwords : ∀ w ∈ words, w.kind.endsLine = false) {t : Token} (ht : t.kind.endsLine = true) :
    (words ++ [t]).foldlM step ⟨names, units, .operands first result opcode before⟩ =
      (readOperands first.line names before words).bind fun r =>
        ofOperation units first result t.span.start (r.1, opcode, r.2) := by
  induction words generalizing names before with
  | nil =>
      rw [List.nil_append, List.foldlM_cons]
      show step _ t >>= pure =
        ofOperation units first result t.span.start (names, opcode, before.reverse)
      rw [bind_pure, step, ofOperation]
      show takeOperand _ first result opcode before t = _
      cases hkind : t.kind <;> simp_all [takeOperand, TokenKind.endsLine]
  | cons w words ih =>
      rw [List.forall_mem_cons] at hwords
      have ih := fun names before => ih names before hwords.2
      rw [List.cons_append, List.foldlM_cons, step]
      show takeOperand _ first result opcode before w >>= _ = _
      cases hkind : w.kind with
      | stop | newline => simp [hkind, TokenKind.endsLine] at hwords
      | equals | word | malformed => simp only [takeOperand, readOperands, hkind]; rfl
      | id | integer | string =>
          simp only [takeOperand, readOperands, hkind]
          exact ih _ _

/-- Taking an opcode, operands and the end of their line in turn is reading the operation. -/
theorem foldlM_operation {words : List Token}
    (hwords : ∀ w ∈ words, w.kind.endsLine = false) {t : Token} (ht : t.kind.endsLine = true)
    {token : Token} {rest : List Token} (h : words ++ [t] = token :: rest) (stage : Stage) :
    (takeOpcode ⟨names, units, stage⟩ first result token >>= rest.foldlM step) =
      (readOperation first.line names t words).bind
        (ofOperation units first result t.span.start) := by
  cases words with
  | nil =>
      cases h
      rw [readOperation]
      cases hkind : t.kind <;> simp_all [takeOpcode, TokenKind.endsLine] <;> rfl
  | cons w words =>
      obtain ⟨rfl, rfl⟩ := List.cons.inj h
      rw [List.forall_mem_cons] at hwords
      cases hkind : w.kind with
      | word text =>
          simp only [takeOpcode, readOperation, hkind]
          cases Opcode.ofName? text with
          | none => rfl
          | some opcode =>
              show (words ++ [t]).foldlM step _ = _
              rw [foldlM_operands _ _ _ _ _ _ hwords.2 ht]
              dsimp only
              cases readOperands first.line names [] words <;> rfl
      | _ =>
          simp only [takeOpcode, readOperation, hkind]
          rfl

/-- Reading a line is reading what defines its name, reading its operation, and placing it. -/
theorem readLine_bind_place (others : List Token) (t : Token) :
    ((readLine names ⟨first, others, t⟩).bind fun r =>
        (units.place first.line r.2.2 r.2.1).map fun units => ⟨r.1, units, .start⟩) =
      (readResult names ⟨first, others, t⟩).bind fun r =>
        (readOperation first.line r.1 t r.2.2).bind
          (ofOperation units first r.2.1 t.span.start) := by
  rw [readLine]
  cases readResult names ⟨first, others, t⟩ with
  | error e => rfl
  | ok r =>
      obtain ⟨names, result, rest⟩ := r
      dsimp only
      show _ = (readOperation first.line names t rest).bind _
      cases readOperation first.line names t rest <;> rfl

/-- Taking the tokens of a line in turn is reading the line and placing its instruction. -/
theorem foldlM_line {others : List Token} (hwords : ∀ w ∈ first :: others, w.kind.endsLine = false)
    {t : Token} (ht : t.kind.endsLine = true) :
    (first :: (others ++ [t])).foldlM step ⟨names, units, .start⟩ =
      (readLine names ⟨first, others, t⟩).bind fun r =>
        (units.place first.line r.2.2 r.2.1).map fun units => ⟨r.1, units, .start⟩ := by
  rw [readLine_bind_place, List.foldlM_cons, step]
  dsimp only
  cases hkind : first.kind with
  | stop | newline => simp [hkind, TokenKind.endsLine] at hwords
  | id name =>
      rw [List.forall_mem_cons] at hwords
      show (others ++ [t]).foldlM step ⟨names, units, .named first name⟩ = _
      cases others with
      | nil =>
          have hequals : t.kind ≠ .equals := by
            intro h
            simp [h, TokenKind.endsLine] at ht
          simp only [readResult, hkind]
          rw [List.nil_append, List.foldlM_cons, step_named, if_neg hequals]
          rfl
      | cons w words =>
          rw [List.forall_mem_cons] at hwords
          simp only [readResult, hkind]
          rw [List.cons_append, List.foldlM_cons, step_named]
          by_cases hequals : w.kind = .equals
          · obtain ⟨token, rest, htoken⟩ := List.exists_cons_of_ne_nil (l := words ++ [t]) (by simp)
            rw [if_pos hequals, if_pos hequals]
            show (words ++ [t]).foldlM step ⟨names, units, .equated first name⟩ = _
            rw [htoken, List.foldlM_cons, step_equated]
            cases names.define? name with
            | none => rfl
            | some r => exact foldlM_operation r.2 units first _ hwords.2.2 ht htoken _
          · rw [if_neg hequals, if_neg hequals]
            rfl
  | _ =>
      have hresult : readResult names ⟨first, others, t⟩ = .ok (names, none, first :: others) := by
        simp only [readResult, hkind]
      rw [hresult]
      exact foldlM_operation names units first none hwords ht rfl .start

/-! ## The tokens of a text -/

/-- Taking the tokens of a row in turn is reading its line, if it has one. -/
theorem foldlM_row {words : List Token} (hwords : ∀ w ∈ words, w.kind.endsLine = false) {t : Token}
    (ht : t.kind.endsLine = true) :
    (words ++ [t]).foldlM step ⟨names, units, .start⟩ =
      (readLines names units (Line.ofWords words t)).map fun r => ⟨r.1, r.2, .start⟩ := by
  cases words with
  | nil =>
      rw [List.nil_append, List.foldlM_cons, step]
      dsimp only
      cases hkind : t.kind with
      | stop | newline => rfl
      | _ => simp [hkind, TokenKind.endsLine] at ht
  | cons first others =>
      rw [List.cons_append, foldlM_line names units first hwords ht, Line.ofWords, readLines]
      cases readLine names ⟨first, others, t⟩ with
      | error e => rfl
      | ok r =>
          dsimp only [Except.bind]
          cases units.place first.line r.2.2 r.2.1 <;> rfl

/-- Taking the tokens of a text in turn is reading its lines. -/
theorem foldlM_tokensAt (p : Position) (text : List Char) :
    (tokensAt p text).foldlM step ⟨names, units, .start⟩ =
      (readLines names units (lines (tokensAt p text))).map fun r => ⟨r.1, r.2, .start⟩ := by
  induction p, text using row_induction generalizing names units with
  | last p row hrow =>
      rw [lines_of_not_mem p hrow, tokensAt_eq_concat]
      exact foldlM_row names units (endsLine_of_mem_wordsAt hrow) rfl
  | newline p row rest hrow ih =>
      rw [lines_append_newline p hrow, tokensAt_append_newline p hrow, readLines_append,
        List.append_cons, List.foldlM_append,
        foldlM_row names units (endsLine_of_mem_wordsAt hrow) rfl]
      cases readLines names units (Line.ofWords (wordsAt p row) (newlineAt (p.advance row))) with
      | error e => rfl
      | ok r => exact ih r.1 r.2

/-- Taking the tokens of a text in turn, and finishing, is reading the text. -/
theorem parse_eq_foldlM (text : String) :
    Module.parse text = ((tokens text).foldlM step {}).bind finish := by
  rw [Module.parse, tokens_eq, foldlM_tokensAt]
  cases readLines {} {} (lines (tokensAt {} text.toList)) <;> rfl

/-! ## Asking for tokens -/

/-- Takes some tokens, up to the first error or the end. There is no result if there is neither. -/
def read (p : Progress) : List Token → Option (Except ReadError Module)
  | [] => none
  | t :: rest =>
    match p.step t with
    | .error e => some (.error e)
    | .ok p => if t.kind = .stop then some p.finish else read p rest

/-- Asking for tokens one by one is taking those that a scanner finds. -/
theorem run_eq_read (n : Nat) (p : Progress) (s : Scanner) : run n p s = read p (s.take n) := by
  induction n generalizing p s with
  | zero => rfl
  | succ n ih =>
      rw [run, Scanner.take, read]
      cases p.step s.next.1 with
      | error e => rfl
      | ok p =>
          dsimp only
          rw [ih]

/-- Where there is a result, further tokens are not taken. -/
theorem read_append {p : Progress} {tokens : List Token} {r : Except ReadError Module}
    (h : read p tokens = some r) (more : List Token) : read p (tokens ++ more) = some r := by
  induction tokens generalizing p with
  | nil => cases h
  | cons t rest ih =>
      rw [read] at h
      rw [List.cons_append, read]
      cases hstep : p.step t with
      | error e =>
          rw [hstep] at h
          exact h
      | ok next =>
          rw [hstep] at h
          dsimp only at h ⊢
          by_cases hstop : t.kind = .stop
          · rwa [if_pos hstop] at h ⊢
          · rw [if_neg hstop] at h ⊢
            exact ih h

/-- There is a result where the end is among the tokens. -/
theorem exists_read {p : Progress} {tokens : List Token} (h : ∃ t ∈ tokens, t.kind = .stop) :
    ∃ r, read p tokens = some r := by
  induction tokens generalizing p with
  | nil =>
      obtain ⟨t, ht, -⟩ := h
      cases ht
  | cons t rest ih =>
      simp only [List.mem_cons, exists_eq_or_imp] at h
      rw [read]
      cases p.step t with
      | error e => exact ⟨_, rfl⟩
      | ok next =>
          dsimp only
          by_cases hstop : t.kind = .stop
          · rw [if_pos hstop]
            exact ⟨_, rfl⟩
          · rw [if_neg hstop]
            exact ih (h.resolve_left hstop)

/-- Up to the end all tokens are taken in turn. -/
theorem read_concat {words : List Token} (hwords : ∀ w ∈ words, w.kind ≠ .stop) {t : Token}
    (ht : t.kind = .stop) (p : Progress) :
    read p (words ++ [t]) = some (((words ++ [t]).foldlM step p).bind finish) := by
  induction words generalizing p with
  | nil =>
      rw [List.nil_append, read, List.foldlM_cons]
      cases p.step t with
      | error e => rfl
      | ok next => exact if_pos ht
  | cons w words ih =>
      rw [List.forall_mem_cons] at hwords
      rw [List.cons_append, read, List.foldlM_cons]
      cases p.step w with
      | error e => rfl
      | ok next =>
          dsimp only
          rw [if_neg hwords.1]
          exact ih hwords.2 next

/-- A malformed token is no opcode. -/
theorem takeOpcode_malformed {t : Token} {e : LexicalError} (ht : t.kind = .malformed e)
    (p : Progress) :
    p.takeOpcode first result t = .error (.missingOpcode first.line (.malformed e)) := by
  simp only [takeOpcode, ht]

/-- A malformed token is an error, which depends on its kind and its line only. -/
theorem step_malformed (t other : Token) {e : LexicalError} (ht : t.kind = .malformed e)
    (hother : other.kind = .malformed e) (hline : other.line = t.line) (p : Progress) :
    ∃ err, p.step t = .error err ∧ p.step other = .error err := by
  obtain ⟨names, units, stage⟩ := p
  cases stage with
  | start =>
      refine ⟨.missingOpcode t.line (.malformed e), ?_, ?_⟩
      · simp only [step, ht]
        exact takeOpcode_malformed _ _ ht _
      · simp only [step, hother]
        rw [takeOpcode_malformed _ _ hother, hline]
  | named first name =>
      refine ⟨.missingEquals first.line name (.malformed e), ?_, ?_⟩
      · rw [step_named, ht, if_neg nofun]
      · rw [step_named, hother, if_neg nofun]
  | equated first name =>
      rw [step_equated, step_equated]
      cases names.define? name with
      | none => exact ⟨_, rfl, rfl⟩
      | some r => exact ⟨_, takeOpcode_malformed _ _ ht _, takeOpcode_malformed _ _ hother _⟩
  | operands first result opcode before =>
      refine ⟨.malformedOperand first.line e, ?_, ?_⟩
      · simp only [step, takeOperand, ht]
      · simp only [step, takeOperand, hother]

/-- It does not matter that a stray character is found byte by byte, because the first byte is an
error. -/
theorem read_bytewise (p : Progress) (tokens : List Token) :
    read p (tokens.flatMap Token.bytewise) = read p tokens := by
  induction tokens generalizing p with
  | nil => rfl
  | cons t rest ih =>
      rw [List.flatMap_cons, Token.bytewise]
      split
      · next c hkind =>
          obtain ⟨err, hstep, hbyte⟩ := step_malformed t
            ⟨t.kind, ⟨t.span.start, t.span.start + 1⟩, t.line⟩ hkind hkind rfl p
          rw [List.cons_append, read, read, hstep, hbyte]
      · rw [List.singleton_append, read, read]
        cases p.step t with
        | error e => rfl
        | ok next =>
            dsimp only
            rw [ih]

/-! ## Reading bytes -/

/-- Taking the tokens of a text up to the end is reading the text. -/
theorem read_tokens (text : String) : read {} (tokens text) = some (Module.parse text) := by
  have hwords : ∀ w ∈ wordsAt {} text.toList, w.kind ≠ .stop := by
    intro w hw hstop
    refine stop_not_mem_kinds text ?_
    rw [kinds, ← List.map_dropLast, tokens_eq, ← hstop]
    exact List.mem_map_of_mem hw
  rw [parse_eq_foldlM, tokens_eq, tokensAt_eq_concat]
  exact read_concat hwords rfl {}

/-- A scanner over the bytes of a text reads the text, if it may ask for enough tokens. -/
theorem eq_parse_of_run {text : String} {n : Nat} {r : Except ReadError Module}
    (h : run n {} (.ofString text) = some r) : r = Module.parse text := by
  have htokens := Scanner.take_utf8 {} text.toList
  rw [← sourceBytes_eq] at htokens
  have hparse : read {} ((Scanner.ofString text).take
      ((tokens text).flatMap Token.bytewise).length) = some (Module.parse text) :=
    calc read {} ((Scanner.ofString text).take ((tokens text).flatMap Token.bytewise).length)
      _ = read {} ((tokens text).flatMap Token.bytewise) := congrArg (read {}) htokens
      _ = read {} (tokens text) := read_bytewise {} (tokens text)
      _ = some (Module.parse text) := read_tokens text
  rw [run_eq_read] at h
  rcases Nat.le_total n ((tokens text).flatMap Token.bytewise).length with hle | hle
  · obtain ⟨more, hmore⟩ := (Scanner.ofString text).take_isPrefix hle
    rw [← hmore, read_append h more] at hparse
    exact Option.some.inj hparse
  · obtain ⟨more, hmore⟩ := (Scanner.ofString text).take_isPrefix hle
    rw [← hmore, read_append hparse more] at h
    exact (Option.some.inj h).symm

/-- A scanner that finds the end among some tokens has read the text with them. -/
theorem run_eq_parse {text : String} {n : Nat}
    (h : ∃ t ∈ (Scanner.ofString text).take n, t.kind = .stop) :
    run n {} (.ofString text) = some (Module.parse text) := by
  obtain ⟨r, hr⟩ := exists_read (p := {}) h
  rw [← run_eq_read] at hr
  rw [hr, eq_parse_of_run hr]

/-- No text needs more tokens than it has bytes, and one more, to be read. In a short text these
tokens tile the bytes: they follow each other with only blanks and comments between them, each has
the line on which it begins, and the last one, and only this one, marks the end. -/
theorem tokens_tile (text : String) :
    ∃ n ≤ text.utf8ByteSize,
      run (n + 1) {} (.ofString text) = some (Module.parse text) ∧
      (text.utf8ByteSize < 2 ^ 32 →
        Tiles (sourceBytes text) 0 ((Scanner.ofString text).take (n + 1))) := by
  rw [← length_sourceBytes]
  by_cases hshort : (sourceBytes text).length < 2 ^ 32
  · have hstart : Scanner.Reads ⟨sourceBytes text, {}⟩ [] (.ofString text) := ⟨rfl, rfl⟩
    obtain ⟨n, hn, htiles⟩ := Scanner.exists_tiles hshort hstart
    exact ⟨n, hn, run_eq_parse htiles.exists_stop, fun _ => htiles⟩
  · obtain ⟨n, hn, hstop⟩ := (Scanner.ofString text).exists_stop
    exact ⟨n, hn, run_eq_parse hstop, fun h => absurd h hshort⟩

theorem tokens_tile_stray :
    "é ; c\r\n\"a\\".utf8ByteSize < 2 ^ 32 ∧ ∃ n ≤ 11,
      Tiles (sourceBytes "é ; c\r\n\"a\\") 0
        ((Scanner.ofString "é ; c\r\n\"a\\").take (n + 1)) ∧
      run (n + 1) {} (.ofString "é ; c\r\n\"a\\") = some (Module.parse "é ; c\r\n\"a\\") := by
  have hshort : "é ; c\r\n\"a\\".utf8ByteSize < 2 ^ 32 := by decide
  obtain ⟨n, hn, hrun, htiles⟩ := tokens_tile "é ; c\r\n\"a\\"
  exact ⟨hshort, n, hn, htiles hshort, hrun⟩

end SpirvLegality.Listing.Progress
