import SpirvLegality.Proofs.Lines

/-!
# Cutting a text at its line feeds

No token and no comment goes beyond the line on which it begins. So the tokens up to a line feed do
not depend on what is behind it (`tokensAt_append_newline`), and the lines of a text are those up to
a line feed and then those behind it (`lines_append_newline`). The tokens of one row have the number
of its line and stand within it (`Token.StandsIn`).
-/

namespace SpirvLegality.Listing

/-! ## Places -/

namespace Position

theorem advance_append (p : Position) (text others : List Char) :
    p.advance (text ++ others) = (p.advance text).advance others :=
  List.foldl_append

theorem advance_cons (p : Position) (c : Char) (text : List Char) :
    p.advance (c :: text) = (p.next c).advance text :=
  rfl

/-- Passing over characters counts the line feeds among them. -/
theorem line_advance (p : Position) (text : List Char) :
    (p.advance text).line = p.line + text.count '\n' := by
  induction text generalizing p with
  | nil => rfl
  | cons c rest ih =>
      rw [advance_cons, ih, next, List.count_cons]
      by_cases h : c = '\n'
      · simp only [h, if_true, beq_self_eq_true]
        omega
      · simp only [h, if_false, beq_iff_eq]
        omega

theorem line_advance_of_not_mem {p : Position} {row : List Char} (h : '\n' ∉ row) :
    (p.advance row).line = p.line := by
  rw [line_advance, List.count_eq_zero_of_not_mem h, Nat.add_zero]

theorem offset_le_advance (p : Position) (text : List Char) :
    p.offset ≤ (p.advance text).offset := by
  induction text generalizing p with
  | nil => exact Nat.le_refl _
  | cons c rest ih => exact Nat.le_trans (Nat.le_add_right _ c.utf8Size) (ih (p.next c))

/-- Passing over some characters goes on. -/
theorem offset_lt_advance_cons (p : Position) (c : Char) (text : List Char) :
    p.offset < (p.advance (c :: text)).offset :=
  Nat.lt_of_lt_of_le (Nat.lt_add_of_pos_right c.utf8Size_pos) ((p.next c).offset_le_advance text)

end Position

/-! ## Tokens from a place on -/

/-- The tokens of a text that begins at a place. -/
def tokensAt (p : Position) (text : List Char) : List Token := (tokensFrom p [] text).reverse

theorem tokens_eq (text : String) : tokens text = tokensAt {} text.toList := rfl

/-- The place where a token begins that stands behind some blanks. -/
def tokenStart (p : Position) (text : List Char) : Position :=
  p.advance (text.take (blankLength text))

/-- The place behind the first token of a text, which begins with `c` and goes on in `rest`. -/
def tokenStop (p : Position) (text : List Char) (c : Char) (rest : List Char) : Position :=
  (tokenStart p text).advance (c :: rest.take (scan c rest).2)

/-- The first token of a text, which begins with `c` and goes on in `rest`. -/
def firstToken (p : Position) (text : List Char) (c : Char) (rest : List Char) : Token :=
  .between (scan c rest).1 (tokenStart p text) (tokenStop p text c rest)

/-- The mark of the end at a place. -/
def stopAt (p : Position) : Token := .between .stop p p

/-- Where only blanks are left, the text is passed over. -/
theorem tokenStart_of_drop_eq_nil {p : Position} {text : List Char}
    (h : text.drop (blankLength text) = []) : tokenStart p text = p.advance text := by
  rw [tokenStart, List.take_of_length_le (List.drop_eq_nil_iff.1 h)]

/-- Behind the first token, the rest of the text is passed over. -/
theorem advance_tokenStop {p : Position} {text : List Char} {c : Char} {rest : List Char}
    (h : text.drop (blankLength text) = c :: rest) :
    (tokenStop p text c rest).advance (rest.drop (scan c rest).2) = p.advance text := by
  rw [tokenStop, tokenStart, ← Position.advance_append, ← Position.advance_append,
    List.cons_append, List.take_append_drop, ← h, List.take_append_drop]

/-- Going over a text token by token: what holds where only blanks are left, and of a text if it
holds behind its first token, holds of all texts. -/
theorem token_induction {motive : Position → List Char → Prop}
    (nil : ∀ p text, text.drop (blankLength text) = [] → motive p text)
    (cons : ∀ p text c rest, text.drop (blankLength text) = c :: rest →
      motive (tokenStop p text c rest) (rest.drop (scan c rest).2) → motive p text)
    (p : Position) (text : List Char) : motive p text := by
  induction hlength : text.length using Nat.strong_induction_on generalizing p text with
  | _ n ih =>
      cases hdrop : text.drop (blankLength text) with
      | nil => exact nil p text hdrop
      | cons c rest =>
          have hlt : (rest.drop (scan c rest).2).length < n := by
            have hcons := congrArg List.length hdrop
            simp only [List.length_drop, List.length_cons] at hcons ⊢
            omega
          exact cons p text c rest hdrop (ih _ hlt _ _ rfl)

theorem tokensFrom_of_drop_eq_nil {p : Position} {before : List Token} {text : List Char}
    (h : text.drop (blankLength text) = []) :
    tokensFrom p before text = stopAt (p.advance text) :: before := by
  rw [← tokenStart_of_drop_eq_nil h, tokensFrom]
  split
  · rfl
  · next hcons =>
      rw [h] at hcons
      cases hcons

theorem tokensFrom_of_drop_eq_cons {p : Position} {before : List Token} {text : List Char}
    {c : Char} {rest : List Char} (h : text.drop (blankLength text) = c :: rest) :
    tokensFrom p before text = tokensFrom (tokenStop p text c rest)
      (firstToken p text c rest :: before) (rest.drop (scan c rest).2) := by
  rw [tokensFrom]
  split
  · next hnil =>
      rw [h] at hnil
      cases hnil
  · next hcons =>
      rw [h] at hcons
      cases hcons
      rfl

/-- Tokens that were found before stay in front. -/
theorem tokensFrom_eq_append (p : Position) (before : List Token) (text : List Char) :
    tokensFrom p before text = tokensFrom p [] text ++ before := by
  induction p, text using token_induction generalizing before with
  | nil p text hdrop =>
      rw [tokensFrom_of_drop_eq_nil hdrop, tokensFrom_of_drop_eq_nil hdrop]
      rfl
  | cons p text c rest hdrop ih =>
      rw [tokensFrom_of_drop_eq_cons hdrop, tokensFrom_of_drop_eq_cons hdrop, ih, ih [_],
        List.append_assoc, List.singleton_append]

/-- Where only blanks are left, there is only the mark of the end. -/
theorem tokensAt_of_drop_eq_nil {p : Position} {text : List Char}
    (h : text.drop (blankLength text) = []) : tokensAt p text = [stopAt (p.advance text)] := by
  rw [tokensAt, tokensFrom_of_drop_eq_nil h, List.reverse_singleton]

/-- The first token of a text, and then the tokens of the rest. -/
theorem tokensAt_of_drop_eq_cons {p : Position} {text : List Char} {c : Char} {rest : List Char}
    (h : text.drop (blankLength text) = c :: rest) :
    tokensAt p text = firstToken p text c rest ::
      tokensAt (tokenStop p text c rest) (rest.drop (scan c rest).2) := by
  rw [tokensAt, tokensFrom_of_drop_eq_cons h, tokensFrom_eq_append, List.reverse_append]
  rfl

/-- The tokens of a text without the mark of the end. -/
def wordsAt (p : Position) (text : List Char) : List Token := (tokensAt p text).dropLast

/-- The mark of the end comes last. -/
theorem tokensAt_eq_concat (p : Position) (text : List Char) :
    tokensAt p text = wordsAt p text ++ [stopAt (p.advance text)] := by
  induction p, text using token_induction with
  | nil p text hdrop =>
      rw [wordsAt, tokensAt_of_drop_eq_nil hdrop]
      rfl
  | cons p text c rest hdrop ih =>
      rw [advance_tokenStop hdrop] at ih
      rw [wordsAt, tokensAt_of_drop_eq_cons hdrop, ih, ← List.cons_append, List.dropLast_concat]

theorem wordsAt_of_drop_eq_nil {p : Position} {text : List Char}
    (h : text.drop (blankLength text) = []) : wordsAt p text = [] := by
  rw [wordsAt, tokensAt_of_drop_eq_nil h]
  rfl

theorem wordsAt_of_drop_eq_cons {p : Position} {text : List Char} {c : Char} {rest : List Char}
    (h : text.drop (blankLength text) = c :: rest) :
    wordsAt p text = firstToken p text c rest ::
      wordsAt (tokenStop p text c rest) (rest.drop (scan c rest).2) := by
  rw [wordsAt, tokensAt_of_drop_eq_cons h, tokensAt_eq_concat, ← List.cons_append,
    List.dropLast_concat]

theorem map_kind_wordsAt (p : Position) (text : List Char) :
    (wordsAt p text).map (·.kind) = kindsFrom text := by
  rw [wordsAt, List.map_dropLast, tokensAt, map_kind_tokensFrom, List.dropLast_concat]
  rfl

/-! ## What a token depends on -/

/-- A scan that stops at a line feed looks at nothing behind it. -/
theorem takeWhile_append_newline (test : Char → Bool) (h : test '\n' = false)
    (row rest : List Char) : (row ++ '\n' :: rest).takeWhile test = row.takeWhile test := by
  induction row with
  | nil => exact List.takeWhile_cons_of_neg (by simp [h])
  | cons c row ih => rw [List.cons_append, List.takeWhile_cons, List.takeWhile_cons, ih]

theorem dropWhile_append_newline (test : Char → Bool) (h : test '\n' = false)
    (row rest : List Char) :
    (row ++ '\n' :: rest).dropWhile test = row.dropWhile test ++ '\n' :: rest := by
  induction row with
  | nil => exact List.dropWhile_cons_of_neg (by simp [h])
  | cons c row ih =>
      rw [List.cons_append, List.dropWhile_cons, List.dropWhile_cons, ih]
      split <;> rfl

/-- A comment is known by its first two characters. -/
theorem commentLength_cons (c : Char) (rest : List Char) :
    commentLength (c :: rest) =
      if c = ';' ∨ c = '/' ∧ rest.head? = some '/' then
        ((c :: rest).takeWhile (· ≠ '\n')).length
      else 0 := by
  unfold commentLength
  split
  · next heq =>
      cases heq
      rfl
  · next heq =>
      cases heq
      rfl
  · next hsemicolon hslashes =>
      rw [if_neg]
      rintro (rfl | ⟨rfl, hrest⟩)
      · exact hsemicolon rest rfl
      · obtain ⟨others, rfl⟩ := List.head?_eq_some_iff.1 hrest
        exact hslashes others rfl

/-- A comment ends before the next line feed. -/
theorem commentLength_append_newline (row rest : List Char) :
    commentLength (row ++ '\n' :: rest) = commentLength row := by
  cases row with
  | nil => rfl
  | cons c row =>
      have hhead : (row ++ '\n' :: rest).head? = some '/' ↔ row.head? = some '/' := by
        cases row with
        | nil => simp
        | cons d row => rfl
      have htake := takeWhile_append_newline (· ≠ '\n') (by decide) (c :: row) rest
      rw [List.cons_append] at htake ⊢
      rw [commentLength_cons, commentLength_cons, htake]
      simp only [hhead]

theorem commentLength_le (text : List Char) : commentLength text ≤ text.length := by
  unfold commentLength
  split
  · exact (List.takeWhile_sublist _).length_le
  · exact (List.takeWhile_sublist _).length_le
  · exact Nat.zero_le _

/-- What stands before a token ends before the next line feed. -/
theorem blankLength_append_newline (row rest : List Char) :
    blankLength (row ++ '\n' :: rest) = blankLength row := by
  rw [blankLength, takeWhile_append_newline _ (by decide), dropWhile_append_newline _ (by decide),
    commentLength_append_newline, blankLength]

theorem blankLength_le (text : List Char) : blankLength text ≤ text.length := by
  have hcomment := commentLength_le (text.dropWhile isInlineBlank)
  have hlength := congrArg List.length
    (List.takeWhile_append_dropWhile (p := isInlineBlank) (l := text))
  rw [List.length_append] at hlength
  rw [blankLength]
  omega

/-- A quoted text ends before the next line feed. -/
theorem scanString_append_newline (content : List Char) (length : Nat) (row rest : List Char) :
    scanString content length (row ++ '\n' :: rest) = scanString content length row := by
  fun_induction scanString content length row with
  | case7 content length c row hnewline hquote hlast hescaped hescape ih =>
      have hbackslash : c ≠ '\\' := by
        intro hc
        cases row with
        | nil => exact hlast hc rfl
        | cons d row => exact hescape d row hc rfl
      rw [List.cons_append, scanString]
      · exact ih
      all_goals simp_all
  | _ => simp_all [scanString]

/-- A quoted text has no more characters than there are. -/
theorem scanString_length_le (content : List Char) (length : Nat) (text : List Char) :
    (scanString content length text).2 ≤ length + text.length := by
  fun_induction scanString content length text <;>
    simp only [List.length_cons, List.length_nil] at * <;> omega

/-- A zero and the letter `x`, in either case, stand before the digits of a number in base
sixteen. -/
def MarksHexadecimal (c : Char) (rest : List Char) : Prop :=
  c = '0' ∧ (rest.head? = some 'x' ∨ rest.head? = some 'X')

instance (c : Char) (rest : List Char) : Decidable (MarksHexadecimal c rest) :=
  inferInstanceAs (Decidable (_ ∧ _))

/-- What is read of a character and those behind it, case by case. -/
theorem scan_eq (c : Char) (rest : List Char) :
    scan c rest =
      if c = '\n' then (.newline, 0)
      else if c = '=' then (.equals, 0)
      else if c = '%' then
        if (rest.takeWhile isWordChar).isEmpty then (.malformed .emptyId, 0)
        else (.id (String.ofList (rest.takeWhile isWordChar)), (rest.takeWhile isWordChar).length)
      else if c = '"' then scanString [] 0 rest
      else if c.isDigit then
        if MarksHexadecimal c rest then
          (integerOf 16 (rest.tail.takeWhile isWordChar),
            (rest.tail.takeWhile isWordChar).length + 1)
        else
          (integerOf 10 (c :: rest.takeWhile isWordChar), (rest.takeWhile isWordChar).length)
      else if c.isAlpha || c = '_' then
        (.word (String.ofList (c :: rest.takeWhile isWordChar)),
          (rest.takeWhile isWordChar).length)
      else (.malformed (.unexpected c), 0) := by
  by_cases hhex : MarksHexadecimal c rest
  · obtain ⟨rfl, hx⟩ := id hhex
    rw [if_pos hhex]
    cases rest with
    | nil => simp at hx
    | cons x rest =>
        rcases hx with hx | hx
        · cases hx
          rfl
        · cases hx
          rfl
  · rw [if_neg hhex]
    unfold scan
    -- the two forms differ in the case of a digit only
    congr 5
    split
    · exact absurd ⟨rfl, Or.inl rfl⟩ hhex
    · exact absurd ⟨rfl, Or.inr rfl⟩ hhex
    · rfl

/-- A token ends before the next line feed. -/
theorem scan_append_newline (c : Char) (row rest : List Char) :
    scan c (row ++ '\n' :: rest) = scan c row := by
  have hword := takeWhile_append_newline isWordChar (by decide) row rest
  have htail : MarksHexadecimal c row →
      (row ++ '\n' :: rest).tail.takeWhile isWordChar = row.tail.takeWhile isWordChar := by
    intro hhex
    cases row with
    | nil => exact absurd hhex.2 (by simp)
    | cons d row => exact takeWhile_append_newline isWordChar (by decide) row rest
  have hhex : MarksHexadecimal c (row ++ '\n' :: rest) ↔ MarksHexadecimal c row := by
    cases row with
    | nil => simp [MarksHexadecimal]
    | cons d row => rfl
  rw [scan_eq, scan_eq, hword, scanString_append_newline]
  by_cases h : MarksHexadecimal c row
  · rw [if_pos h, if_pos (hhex.2 h), htail h]
  · rw [if_neg h, if_neg (h ∘ hhex.1)]

/-- A token has no more characters than there are. -/
theorem scan_length_le (c : Char) (text : List Char) : (scan c text).2 ≤ text.length := by
  have hword (text : List Char) : (text.takeWhile isWordChar).length ≤ text.length :=
    (List.takeWhile_sublist _).length_le
  have hstring := scanString_length_le [] 0 text
  rw [Nat.zero_add] at hstring
  rw [scan_eq]
  repeat' split
  · exact Nat.zero_le _
  · exact Nat.zero_le _
  · exact Nat.zero_le _
  · exact hword text
  · exact hstring
  · next hhex =>
      cases text with
      | nil => exact absurd hhex.2 (by simp)
      | cons x rest => exact Nat.succ_le_succ (hword rest)
  · exact hword text
  · exact hword text
  · exact Nat.zero_le _

/-- Only a line feed is read as one. -/
theorem scan_ne_newline {c : Char} (h : c ≠ '\n') (rest : List Char) :
    (scan c rest).1 ≠ .newline := by
  have hstring : (scanString [] 0 rest).1 ≠ .newline := by
    obtain h | ⟨text, h⟩ := scanString_cases [] 0 rest <;> simp [h]
  have hinteger (base : Nat) (digits : List Char) : integerOf base digits ≠ .newline := by
    obtain ⟨value, h⟩ | h := integerOf_cases base digits <;> simp [h]
  rw [scan_eq, if_neg h]
  repeat' split
  · nofun
  · nofun
  · nofun
  · exact hstring
  · exact hinteger 16 _
  · exact hinteger 10 _
  · nofun
  · nofun

/-! ## The tokens of a row -/

/-- The line feed at a place. -/
def newlineAt (p : Position) : Token := .between .newline p (p.next '\n')

/-- The tokens up to a line feed do not depend on what is behind it. -/
theorem tokensAt_append_newline (p : Position) {row : List Char} (hrow : '\n' ∉ row)
    (rest : List Char) :
    tokensAt p (row ++ '\n' :: rest) = wordsAt p row ++
      newlineAt (p.advance row) :: tokensAt ((p.advance row).next '\n') rest := by
  induction p, row using token_induction with
  | nil p row hdrop =>
      have hcons : (row ++ '\n' :: rest).drop (blankLength (row ++ '\n' :: rest)) =
          '\n' :: rest := by
        rw [blankLength_append_newline, List.drop_append_of_le_length (blankLength_le row), hdrop,
          List.nil_append]
      have hstart : tokenStart p (row ++ '\n' :: rest) = p.advance row := by
        rw [tokenStart, blankLength_append_newline,
          List.take_append_of_le_length (blankLength_le row), ← tokenStart,
          tokenStart_of_drop_eq_nil hdrop]
      rw [tokensAt_of_drop_eq_cons hcons, wordsAt_of_drop_eq_nil hdrop, firstToken, tokenStop,
        hstart]
      rfl
  | cons p row c others hdrop ih =>
      have hcons : (row ++ '\n' :: rest).drop (blankLength (row ++ '\n' :: rest)) =
          c :: (others ++ '\n' :: rest) := by
        rw [blankLength_append_newline, List.drop_append_of_le_length (blankLength_le row), hdrop,
          List.cons_append]
      have hstart : tokenStart p (row ++ '\n' :: rest) = tokenStart p row := by
        rw [tokenStart, blankLength_append_newline,
          List.take_append_of_le_length (blankLength_le row), tokenStart]
      have hstop : tokenStop p (row ++ '\n' :: rest) c (others ++ '\n' :: rest) =
          tokenStop p row c others := by
        rw [tokenStop, hstart, scan_append_newline,
          List.take_append_of_le_length (scan_length_le c others), tokenStop]
      have hothers : '\n' ∉ others.drop (scan c others).2 := by
        intro hmem
        have hmem := List.mem_cons_of_mem c (List.mem_of_mem_drop hmem)
        rw [← hdrop] at hmem
        exact hrow (List.mem_of_mem_drop hmem)
      rw [tokensAt_of_drop_eq_cons hcons, wordsAt_of_drop_eq_cons hdrop, firstToken, hstart, hstop,
        scan_append_newline, List.drop_append_of_le_length (scan_length_le c others), ih hothers,
        advance_tokenStop hdrop]
      rfl

/-- A token that does not end its line stands on the line of a place and begins between two
offsets. -/
structure Token.StandsIn (t : Token) (p : Position) (stop : Nat) : Prop where
  endsLine_eq : t.kind.endsLine = false
  line_eq : t.line = p.line
  exists_start : ∃ offset, p.offset ≤ offset ∧ offset < stop ∧ t.span.start = .ofNat offset

/-- The tokens of a row stand in it. -/
theorem standsIn_of_mem_wordsAt {p : Position} {row : List Char} (hrow : '\n' ∉ row) {t : Token}
    (ht : t ∈ wordsAt p row) : t.StandsIn p (p.advance row).offset := by
  induction p, row using token_induction with
  | nil p row hdrop =>
      rw [wordsAt_of_drop_eq_nil hdrop] at ht
      cases ht
  | cons p row c rest hdrop ih =>
      have hmem : ∀ d ∈ c :: rest, d ≠ '\n' := by
        intro d hd
        rw [← hdrop] at hd
        rintro rfl
        exact hrow (List.mem_of_mem_drop hd)
      have hblanks : '\n' ∉ row.take (blankLength row) := fun h => hrow (List.mem_of_mem_take h)
      have hstart : (tokenStart p row).line = p.line := Position.line_advance_of_not_mem hblanks
      have hle : p.offset ≤ (tokenStart p row).offset := p.offset_le_advance _
      have hlt : (tokenStart p row).offset < (tokenStop p row c rest).offset :=
        Position.offset_lt_advance_cons _ c _
      have hend : (tokenStop p row c rest).offset ≤ (p.advance row).offset := by
        rw [← advance_tokenStop hdrop]
        exact Position.offset_le_advance _ _
      rw [wordsAt_of_drop_eq_cons hdrop, List.mem_cons] at ht
      rcases ht with rfl | ht
      · refine ⟨?_, hstart, _, hle, Nat.lt_of_lt_of_le hlt hend, rfl⟩
        have hstop := scan_ne_stop c rest
        have hnewline := scan_ne_newline (hmem c List.mem_cons_self) rest
        show (scan c rest).1.endsLine = false
        cases hkind : (scan c rest).1 <;> simp_all [TokenKind.endsLine]
      · have htoken : '\n' ∉ c :: rest.take (scan c rest).2 := by
          intro h
          rcases List.mem_cons.1 h with h | h
          · exact hmem '\n' (h ▸ List.mem_cons_self) rfl
          · exact hmem '\n' (List.mem_cons_of_mem c (List.mem_of_mem_take h)) rfl
        have hrest : '\n' ∉ rest.drop (scan c rest).2 := fun h =>
          hmem '\n' (List.mem_cons_of_mem c (List.mem_of_mem_drop h)) rfl
        obtain ⟨hkind, hline, offset, hfrom, hto, hoffset⟩ := ih hrest ht
        rw [advance_tokenStop hdrop] at hto
        have hbehind := Nat.le_trans (Nat.le_of_lt (Nat.lt_of_le_of_lt hle hlt)) hfrom
        refine ⟨hkind, ?_, offset, hbehind, hto, hoffset⟩
        rw [hline, tokenStop, Position.line_advance_of_not_mem htoken, hstart]

/-- No token of a row ends its line. -/
theorem endsLine_of_mem_wordsAt {p : Position} {row : List Char} (hrow : '\n' ∉ row) :
    ∀ w ∈ wordsAt p row, w.kind.endsLine = false :=
  fun _ hw => (standsIn_of_mem_wordsAt hrow hw).endsLine_eq

/-- Going over a text row by row: what holds of a row that ends with the text, and of a row and a
line feed if it holds of what is behind them, holds of all texts. -/
theorem row_induction {motive : Position → List Char → Prop}
    (last : ∀ p row, '\n' ∉ row → motive p row)
    (newline : ∀ p row rest, '\n' ∉ row → motive ((p.advance row).next '\n') rest →
      motive p (row ++ '\n' :: rest))
    (p : Position) (text : List Char) : motive p text := by
  induction hlength : text.length using Nat.strong_induction_on generalizing p text with
  | _ n ih =>
      by_cases hmem : '\n' ∈ text
      · obtain ⟨row, rest, rfl, hrow⟩ := List.eq_append_cons_of_mem hmem
        have hlt : rest.length < n := by
          rw [List.length_append, List.length_cons] at hlength
          omega
        exact newline p row rest hrow (ih _ hlt _ rest rfl)
      · exact last p text hmem

/-! ## The lines of a text -/

/-- The line of some tokens, if there are any. -/
def Line.ofWords (words : List Token) (terminator : Token) : List Line :=
  match words with
  | [] => []
  | first :: others => [⟨first, others, terminator⟩]

/-- Lines that were found before stay behind. -/
theorem linesFrom_eq_append (current : List Token) (before : List Line) (tokens : List Token) :
    linesFrom current before tokens = linesFrom current [] tokens ++ before := by
  have hclose (current : List Token) (t : Token) (before : List Line) :
      closeLine current t before = closeLine current t [] ++ before := by
    unfold closeLine
    cases current.reverse <;> rfl
  induction tokens generalizing current before with
  | nil => rfl
  | cons t rest ih =>
      rw [linesFrom, linesFrom]
      split
      · rw [ih, hclose, ih [] (closeLine current t []), List.append_assoc]
      · exact ih _ before

/-- Tokens up to one that ends their line form a line. -/
theorem linesFrom_append {words : List Token} (hwords : ∀ w ∈ words, w.kind.endsLine = false)
    (current rest : List Token) :
    linesFrom current [] (words ++ rest) = linesFrom (words.reverse ++ current) [] rest := by
  induction words generalizing current with
  | nil => rfl
  | cons w words ih =>
      rw [List.forall_mem_cons] at hwords
      rw [List.cons_append, linesFrom, if_neg (Bool.eq_false_iff.1 hwords.1), ih hwords.2,
        List.reverse_cons, List.append_assoc]
      rfl

theorem lines_append_cons {words : List Token} (hwords : ∀ w ∈ words, w.kind.endsLine = false)
    {t : Token} (ht : t.kind.endsLine = true) (rest : List Token) :
    lines (words ++ t :: rest) = Line.ofWords words t ++ lines rest := by
  rw [lines, linesFrom_append hwords, List.append_nil, linesFrom, if_pos ht, linesFrom_eq_append,
    List.reverse_append, lines, closeLine, List.reverse_reverse]
  cases words <;> rfl

/-- The lines of a text: that of its first row, and those behind the line feed. -/
theorem lines_append_newline (p : Position) {row : List Char} (hrow : '\n' ∉ row)
    (rest : List Char) :
    lines (tokensAt p (row ++ '\n' :: rest)) =
      Line.ofWords (wordsAt p row) (newlineAt (p.advance row)) ++
        lines (tokensAt ((p.advance row).next '\n') rest) := by
  rw [tokensAt_append_newline p hrow]
  exact lines_append_cons (endsLine_of_mem_wordsAt hrow) rfl _

/-- The line of a row with which a text ends. -/
theorem lines_of_not_mem (p : Position) {row : List Char} (hrow : '\n' ∉ row) :
    lines (tokensAt p row) = Line.ofWords (wordsAt p row) (stopAt (p.advance row)) := by
  rw [tokensAt_eq_concat, lines_append_cons (endsLine_of_mem_wordsAt hrow) rfl]
  exact List.append_nil _

/-- The lines of a text are its rows that are not empty, wherever it begins. -/
theorem map_kinds_lines_tokensAt (p : Position) (text : List Char) :
    (lines (tokensAt p text)).map Line.kinds = rows (kindsFrom text) := by
  have hkinds : (tokensAt p text).map (·.kind) = kindsFrom text ++ [.stop] := by
    rw [tokensAt, map_kind_tokensFrom]
    rfl
  rw [lines, map_kinds_linesFrom (stop_not_mem_kindsFrom text) [] [] hkinds, rows_eq]
  rfl

/-- Reading some lines and then others. -/
theorem readLines_append (names : NameTable) (units : UnitBuilder) (lines others : List Line) :
    readLines names units (lines ++ others) =
      (readLines names units lines).bind fun r => readLines r.1 r.2 others := by
  induction lines generalizing names units with
  | nil => rfl
  | cons line lines ih =>
      rw [List.cons_append, readLines, readLines]
      cases readLine names line with
      | error e => rfl
      | ok r =>
          dsimp only
          cases units.place line.first.line r.2.2 r.2.1 with
          | error e => rfl
          | ok units => exact ih r.1 units

end SpirvLegality.Listing
