import SpirvLegality.Proofs.Tiling

/-!
# Scanning the bytes of a text

A scanner over the bytes of a text finds the tokens of the text. It passes over the same blanks and
comments (`Scanner.skipTrivia_utf8`) and reads the same tokens (`scanByte_utf8`), except that it
reports a character outside ASCII that begins no token once for each of its bytes
(`Token.bytewise`, `Scanner.take_utf8`). A quoted text is always UTF-8.
-/

namespace SpirvLegality.Listing

/-- As many characters as pass a test in front are those that pass it. -/
theorem take_length_takeWhile (test : Char → Bool) (text : List Char) :
    text.take (text.takeWhile test).length = text.takeWhile test :=
  (List.prefix_iff_eq_take.1 (List.takeWhile_prefix test)).symm

theorem drop_length_takeWhile (test : Char → Bool) (text : List Char) :
    text.drop (text.takeWhile test).length = text.dropWhile test := by
  have happend := List.takeWhile_append_dropWhile (p := test) (l := text)
  exact (congrArg (List.drop _) happend).symm.trans List.drop_left

/-! ## Quoted texts -/

section Quoted

variable (content : List UInt8) (length : Nat) (rest : List UInt8)

theorem scanQuoted_newline :
    scanQuoted content length ('\n'.toUInt8 :: rest) = (none, length) := by
  rw [scanQuoted.eq_def]
  exact if_pos rfl

theorem scanQuoted_quote :
    scanQuoted content length ('"'.toUInt8 :: rest) = (some content.reverse, length + 1) := by
  rw [scanQuoted.eq_def]
  rfl

/-- A byte that is not special is part of the content. -/
theorem scanQuoted_plain {b : UInt8} (hnewline : b ≠ '\n'.toUInt8) (hquote : b ≠ '"'.toUInt8)
    (hbackslash : b ≠ '\\'.toUInt8) :
    scanQuoted content length (b :: rest) = scanQuoted (b :: content) (length + 1) rest := by
  rw [scanQuoted.eq_def]
  show (if _ then _ else _) = _
  rw [if_neg hnewline, if_neg hquote, if_neg hbackslash]

/-- A byte behind a backslash is part of the content. -/
theorem scanQuoted_escaped {b : UInt8} (hnewline : b ≠ '\n'.toUInt8) :
    scanQuoted content length ('\\'.toUInt8 :: b :: rest) =
      scanQuoted (b :: content) (length + 2) rest := by
  rw [scanQuoted.eq_def]
  show (if b = '\n'.toUInt8 then _ else _) = _
  rw [if_neg hnewline]

/-- Bytes that go on with a character are part of the content. -/
theorem scanQuoted_append {bytes : List UInt8} (h : ∀ b ∈ bytes, Continues b) :
    scanQuoted content length (bytes ++ rest) =
      scanQuoted (bytes.reverse ++ content) (length + bytes.length) rest := by
  induction bytes generalizing content length with
  | nil => rfl
  | cons b bytes ih =>
      rw [List.forall_mem_cons] at h
      have hother {d : Char} (hd : d.toUInt8.toNat < 128) : b ≠ d.toUInt8 := by
        rintro rfl
        exact absurd h.1.1 (Nat.not_le.2 hd)
      rw [List.cons_append, scanQuoted_plain _ _ _ (hother (by decide)) (hother (by decide))
        (hother (by decide)), ih _ _ h.2, List.reverse_cons, List.append_assoc, List.length_cons,
        List.singleton_append, Nat.add_assoc, Nat.add_comm 1]

end Quoted

/-- One more character of the content, byte by byte. -/
theorem reverse_utf8_reverse_cons {c : Char} {b : UInt8} {tail : List UInt8}
    (h : String.utf8EncodeChar c = b :: tail) (content : List Char) :
    (utf8 (c :: content).reverse).reverse =
      tail.reverse ++ b :: (utf8 content.reverse).reverse := by
  rw [List.reverse_cons, utf8_append, utf8_cons, h]
  simp [utf8]

/-- A quoted text in bytes is the same text in characters: both end at the same place, and if they
end with a quotation mark, then with the same content. -/
theorem scanQuoted_utf8 (content : List Char) (length : Nat) (text : List Char) (read : Nat) :
    ∃ n, (scanString content length text).2 = length + n ∧
      (scanQuoted (utf8 content.reverse).reverse read (utf8 text)).2 =
        read + (utf8 (text.take n)).length ∧
      stringOf (scanQuoted (utf8 content.reverse).reverse read (utf8 text)).1 =
        (scanString content length text).1 := by
  fun_induction scanString content length text generalizing read with
  | case1 content length => exact ⟨0, rfl, rfl, rfl⟩
  | case2 content length rest =>
      have hquoted := scanQuoted_newline (utf8 content.reverse).reverse read (utf8 rest)
      exact ⟨0, rfl, congrArg Prod.snd hquoted, congrArg (stringOf ∘ Prod.fst) hquoted⟩
  | case3 content length rest =>
      have hquoted := scanQuoted_quote (utf8 content.reverse).reverse read (utf8 rest)
      rw [List.reverse_reverse] at hquoted
      refine ⟨1, rfl, congrArg Prod.snd hquoted, (congrArg (stringOf ∘ Prod.fst) hquoted).trans ?_⟩
      simp only [Function.comp_apply, stringOf, fromUTF8?_utf8]
  | case4 content length => exact ⟨1, rfl, rfl, rfl⟩
  | case5 content length rest => exact ⟨1, rfl, rfl, rfl⟩
  | case6 content length c rest hnewline ih =>
      obtain ⟨b, tail, hbytes, htail, hfirst⟩ := exists_bytes c
      have hb : b ≠ '\n'.toUInt8 := fun h => hnewline ((hfirst '\n' (by decide)).1 h)
      have hquoted : scanQuoted (utf8 content.reverse).reverse read (utf8 ('\\' :: c :: rest)) =
          scanQuoted (utf8 (c :: content).reverse).reverse (read + 2 + tail.length)
            (utf8 rest) := by
        rw [utf8_cons, utf8_cons, hbytes, List.cons_append, reverse_utf8_reverse_cons hbytes,
          ← scanQuoted_append _ _ _ htail]
        exact scanQuoted_escaped _ _ _ hb
      obtain ⟨n, hlength, hend, hkind⟩ := ih (read + 2 + tail.length)
      refine ⟨n + 2, by omega, ?_, hquoted ▸ hkind⟩
      rw [hquoted, hend, List.take_succ_cons, List.take_succ_cons, utf8_cons, utf8_cons, hbytes]
      simp only [List.length_append, List.length_cons, String.length_utf8EncodeChar]
      show _ = read + (1 + _)
      omega
  | case7 content length c rest hnewline hquote hlast hescaped hescape ih =>
      obtain ⟨b, tail, hbytes, htail, hfirst⟩ := exists_bytes c
      have hbackslash : c ≠ '\\' := by
        intro hc
        cases rest with
        | nil => exact hlast hc rfl
        | cons d rest => exact hescape d rest hc rfl
      have hb {d : Char} (hd : d.toNat < 128) (hne : c ≠ d) : b ≠ d.toUInt8 :=
        fun h => hne ((hfirst d hd).1 h)
      have hquoted : scanQuoted (utf8 content.reverse).reverse read (utf8 (c :: rest)) =
          scanQuoted (utf8 (c :: content).reverse).reverse (read + 1 + tail.length)
            (utf8 rest) := by
        rw [utf8_cons, hbytes, List.cons_append, reverse_utf8_reverse_cons hbytes,
          ← scanQuoted_append _ _ _ htail]
        exact scanQuoted_plain _ _ _ (hb (by decide) hnewline) (hb (by decide) hquote)
          (hb (by decide) hbackslash)
      obtain ⟨n, hlength, hend, hkind⟩ := ih (read + 1 + tail.length)
      refine ⟨n + 1, by omega, ?_, hquoted ▸ hkind⟩
      rw [hquoted, hend, List.take_succ_cons, utf8_cons, hbytes]
      simp only [List.length_append, List.length_cons]
      omega

/-! ## Tokens -/

/-- The character with which the bytes of a text begin is shown whole. -/
theorem shownChar_utf8 {c : Char} {b : UInt8} {tail : List UInt8}
    (h : String.utf8EncodeChar c = b :: tail) (rest : List Char) :
    shownChar b (tail ++ utf8 rest) = c := by
  rw [shownChar, ← List.cons_append, ← h, ← utf8_cons, fromUTF8?_utf8]
  simp

/-- A byte that goes on with a character is shown by its number. -/
theorem shownChar_of_continues {b : UInt8} (h : Continues b) (rest : List UInt8) :
    shownChar b rest = Char.ofUInt8 b := by
  have hvalid : ¬ (b :: rest).toByteArray.IsValidUTF8 := by
    intro hvalid
    have hfirst := hvalid.isUTF8FirstByte_getElem_zero (by simp)
    exact h.2 (by simpa using hfirst)
  rw [shownChar, String.fromUTF8?, dif_neg hvalid]
  rfl

/-- A byte with the number of no ASCII character begins no token. -/
theorem scanByte_of_le {b : UInt8} (h : 128 ≤ b.toNat) (rest : List UInt8) :
    scanByte b rest = (.malformed (.unexpected (shownChar b rest)), 0) := by
  have hle : 128 ≤ (Char.ofUInt8 b).toNat := (toNat_ofUInt8 b).symm ▸ h
  have hne {d : Char} (hd : d.toNat < 128) : Char.ofUInt8 b ≠ d := ne_of_le hle hd
  have hword : isWordChar (Char.ofUInt8 b) = false :=
    Bool.eq_false_iff.2 fun h => absurd (lt_of_isWordChar h) (Nat.not_lt.2 hle)
  simp only [isWordChar, Char.isAlphanum, Bool.or_eq_false_iff] at hword
  obtain ⟨⟨⟨halpha, hdigit⟩, hlow⟩, -⟩ := hword
  rw [scanByte]
  simp only [hne (show '\n'.toNat < 128 by decide), hne (show '='.toNat < 128 by decide),
    hne (show '%'.toNat < 128 by decide), hne (show '"'.toNat < 128 by decide), hdigit, halpha,
    hlow, if_false, Bool.or_false, Bool.false_eq_true]

/-- A character outside ASCII begins no token. -/
theorem scan_of_le {c : Char} (h : 128 ≤ c.toNat) (rest : List Char) :
    scan c rest = (.malformed (.unexpected c), 0) := by
  have hne {d : Char} (hd : d.toNat < 128) : c ≠ d := ne_of_le h hd
  have hword : isWordChar c = false :=
    Bool.eq_false_iff.2 fun hc => absurd (lt_of_isWordChar hc) (Nat.not_lt.2 h)
  simp only [isWordChar, Char.isAlphanum, Bool.or_eq_false_iff] at hword
  obtain ⟨⟨⟨halpha, hdigit⟩, hlow⟩, -⟩ := hword
  rw [scan_eq]
  simp only [hne (show '\n'.toNat < 128 by decide), hne (show '='.toNat < 128 by decide),
    hne (show '%'.toNat < 128 by decide), hne (show '"'.toNat < 128 by decide), hdigit, halpha,
    hlow, if_false, Bool.or_false, Bool.false_eq_true]

/-- A word has as many bytes as characters. -/
theorem length_utf8_take_word (text : List Char) :
    (utf8 (text.take (text.takeWhile isWordChar).length)).length =
      (text.takeWhile isWordChar).length := by
  have hmap : (utf8 (text.takeWhile isWordChar)).map Char.ofUInt8 = text.takeWhile isWordChar :=
    map_ofUInt8_utf8 fun c hc => lt_of_isWordChar (List.mem_takeWhile_imp hc)
  have hlength := congrArg List.length hmap
  rw [List.length_map] at hlength
  rw [take_length_takeWhile, hlength]

/-- The bytes of a text begin with that of an ASCII character where the text begins with it. -/
theorem head?_utf8_eq_iff {d : Char} (hd : d.toNat < 128) (text : List Char) :
    (utf8 text).head? = some d.toUInt8 ↔ text.head? = some d := by
  cases text with
  | nil => exact iff_of_false nofun nofun
  | cons c rest =>
      obtain ⟨b, tail, hbytes, -, hfirst⟩ := exists_bytes c
      rw [utf8_cons, hbytes, List.cons_append, List.head?_cons, List.head?_cons, Option.some_inj,
        Option.some_inj]
      exact hfirst d hd

/-- A token that begins with an ASCII character is read from bytes as from characters. -/
theorem scanByte_utf8 {c : Char} (hc : c.toNat < 128) (rest : List Char) :
    scanByte c.toUInt8 (utf8 rest) =
      ((scan c rest).1, (utf8 (rest.take (scan c rest).2)).length) := by
  have hchar := ofUInt8_toUInt8 hc
  have hshown : shownChar c.toUInt8 (utf8 rest) = c :=
    shownChar_utf8 (utf8EncodeChar_of_lt hc) rest
  obtain ⟨n, hlength, hend, hkind⟩ := scanQuoted_utf8 [] 0 rest 0
  rw [Nat.zero_add] at hlength hend
  rw [scan_eq, scanByte]
  simp only [hchar, leadingWord_utf8, hshown, head?_utf8_eq_iff (show 'x'.toNat < 128 by decide),
    head?_utf8_eq_iff (show 'X'.toNat < 128 by decide)]
  by_cases hnewline : c = '\n'
  · rw [if_pos hnewline, if_pos hnewline]
    rfl
  rw [if_neg hnewline, if_neg hnewline]
  by_cases hequals : c = '='
  · rw [if_pos hequals, if_pos hequals]
    rfl
  rw [if_neg hequals, if_neg hequals]
  by_cases hpercent : c = '%'
  · rw [if_pos hpercent, if_pos hpercent]
    by_cases hempty : (rest.takeWhile isWordChar).isEmpty = true
    · rw [if_pos hempty]
      rfl
    · rw [if_neg hempty, length_utf8_take_word]
  rw [if_neg hpercent, if_neg hpercent]
  by_cases hquote : c = '"'
  · rw [if_pos hquote, if_pos hquote, hlength, ← hkind, ← hend]
    rfl
  rw [if_neg hquote, if_neg hquote]
  by_cases hdigit : c.isDigit = true
  · rw [if_pos hdigit, if_pos hdigit]
    by_cases hhex : MarksHexadecimal c rest
    · rw [if_pos hhex, if_pos (show c = '0' ∧ (rest.head? = some 'x' ∨ rest.head? = some 'X')
        from hhex)]
      cases rest with
      | nil => exact absurd hhex.2 (by simp)
      | cons x rest =>
          have hx : x.toNat < 128 := by
            rcases hhex.2 with h | h
            · cases h
              decide
            · cases h
              decide
          rw [utf8_cons, utf8EncodeChar_of_lt hx, List.take_succ_cons, utf8_cons,
            utf8EncodeChar_of_lt hx, List.length_append, List.tail_cons, length_utf8_take_word,
            List.singleton_append, List.tail_cons, leadingWord_utf8, List.length_singleton,
            Nat.add_comm 1]
    · rw [if_neg hhex, if_neg (show ¬ (c = '0' ∧ (rest.head? = some 'x' ∨ rest.head? = some 'X'))
        from hhex), length_utf8_take_word]
  rw [if_neg hdigit, if_neg hdigit]
  by_cases hword : (c.isAlpha || c = '_') = true
  · rw [if_pos hword, length_utf8_take_word]
  · rw [if_neg hword]
    rfl

/-! ## The next token -/

namespace Scanner

/-- The bytes of a text begin with a comment where the text does. -/
theorem beginsComment_utf8_cons (c : Char) (rest : List Char) :
    beginsComment (utf8 (c :: rest)) = true ↔ c = ';' ∨ c = '/' ∧ rest.head? = some '/' := by
  obtain ⟨b, tail, hbytes, -, hfirst⟩ := exists_bytes c
  rw [utf8_cons, hbytes]
  simp only [List.cons_append, beginsComment, Bool.or_eq_true, Bool.and_eq_true,
    decide_eq_true_eq, hfirst ';' (by decide), hfirst '/' (by decide)]
  refine or_congr Iff.rfl (and_congr_right fun hslash => ?_)
  rw [hslash, utf8EncodeChar_of_lt (by decide), List.cons.injEq] at hbytes
  rw [← hbytes.2, List.nil_append, head?_utf8_eq_iff (by decide)]

/-- Passing over bytes is passing over the characters that they belong to. -/
theorem skipWhile_utf8 {test : UInt8 → Bool} {ofChar : Char → Bool} (h : TestsChars test ofChar)
    (p : Position) (text : List Char) :
    (Scanner.mk (utf8 text) p).skipWhile test =
      ⟨utf8 (text.dropWhile ofChar), p.advance (text.takeWhile ofChar)⟩ := by
  rw [skipWhile, dropWhile_utf8 h, takeWhile_utf8 h, Position.advanceBytes_utf8]

/-- A scanner over the bytes of a text stops before the first token of the text. -/
theorem skipTrivia_utf8 (p : Position) (text : List Char) :
    (Scanner.mk (utf8 text) p).skipTrivia =
      ⟨utf8 (text.drop (blankLength text)), tokenStart p text⟩ := by
  rw [skipTrivia, skipWhile_utf8 testsChars_isBlankByte, tokenStart, blankLength, List.take_add,
    ← List.drop_drop, take_length_takeWhile, drop_length_takeWhile, Position.advance_append]
  generalize p.advance (text.takeWhile isInlineBlank) = q
  generalize text.dropWhile isInlineBlank = text
  by_cases hcomment : beginsComment (utf8 text) = true
  · have hlength : commentLength text = (text.takeWhile (· ≠ '\n')).length := by
      cases text with
      | nil => rfl
      | cons c rest =>
          rw [beginsComment_utf8_cons] at hcomment
          rw [commentLength_cons, if_pos hcomment]
    rw [dif_pos hcomment, skipTrivia_skipWhile, skipWhile_utf8 testsChars_isLineByte, hlength,
      take_length_takeWhile, drop_length_takeWhile]
  · have hlength : commentLength text = 0 := by
      cases text with
      | nil => rfl
      | cons c rest =>
          rw [beginsComment_utf8_cons] at hcomment
          rw [commentLength_cons, if_neg hcomment]
    rw [dif_neg hcomment, hlength]
    rfl

/-! ## The tokens of a text -/

/-- Some bytes of a text are passed over as their characters. -/
theorem skip_utf8 (p : Position) (text others : List Char) :
    (Scanner.mk (utf8 (text ++ others)) p).skip (utf8 text).length =
      ⟨utf8 others, p.advance text⟩ := by
  rw [skip, utf8_append, List.drop_left, List.take_left, Position.advanceBytes_utf8]

/-- A token that begins with an ASCII character is found in the bytes of a text, and the scanner
goes on behind it. -/
theorem next_utf8 {p : Position} {text : List Char} {c : Char} {rest : List Char}
    (h : text.drop (blankLength text) = c :: rest) (hc : c.toNat < 128) :
    (Scanner.mk (utf8 text) p).next =
      (firstToken p text c rest,
        ⟨utf8 (rest.drop (scan c rest).2), tokenStop p text c rest⟩) := by
  have hskip := skipTrivia_utf8 p text
  rw [h, utf8_cons, utf8EncodeChar_of_lt hc, List.singleton_append] at hskip
  have hstop : (Scanner.mk (c.toUInt8 :: utf8 rest) (tokenStart p text)).skip
      ((utf8 (rest.take (scan c rest).2)).length + 1) =
        ⟨utf8 (rest.drop (scan c rest).2), tokenStop p text c rest⟩ := by
    have hbytes := skip_utf8 (tokenStart p text) (c :: rest.take (scan c rest).2)
      (rest.drop (scan c rest).2)
    rw [List.cons_append, List.take_append_drop, utf8_cons, utf8_cons, utf8EncodeChar_of_lt hc,
      List.singleton_append, List.singleton_append, List.length_cons] at hbytes
    exact hbytes
  rw [next_of_rest_eq_cons (congrArg Scanner.rest hskip), hskip, scanByte_utf8 hc, hstop,
    firstToken]

/-- At the end of a text its mark is found. -/
theorem next_utf8_of_drop_eq_nil {p : Position} {text : List Char}
    (h : text.drop (blankLength text) = []) :
    (Scanner.mk (utf8 text) p).next.1 = stopAt (p.advance text) := by
  have hskip := skipTrivia_utf8 p text
  rw [h, tokenStart_of_drop_eq_nil h] at hskip
  rw [next_of_rest_eq_nil (congrArg Scanner.rest hskip), hskip, stopAt]

/-- A byte outside ASCII is neither a blank nor the beginning of a comment. -/
theorem skipTrivia_of_le {b : UInt8} (hb : 128 ≤ b.toNat) (p : Position) (rest : List UInt8) :
    (Scanner.mk (b :: rest) p).skipTrivia = ⟨b :: rest, p⟩ := by
  have hother {d : Char} (hd : d.toNat < 128) : Char.ofUInt8 b ≠ d :=
    ne_of_le ((toNat_ofUInt8 b).symm ▸ hb) hd
  have hblank : ¬ isBlankByte b = true := by
    simp [isBlankByte, isInlineBlank, hother (show ' '.toNat < 128 by decide),
      hother (show '\t'.toNat < 128 by decide), hother (show '\r'.toNat < 128 by decide)]
  have hcomment : ¬ beginsComment (b :: rest) = true := by
    simp [beginsComment, ← ofUInt8_eq_iff (show ';'.toNat < 128 by decide),
      ← ofUInt8_eq_iff (show '/'.toNat < 128 by decide), hother (show ';'.toNat < 128 by decide),
      hother (show '/'.toNat < 128 by decide)]
  rw [skipTrivia, skipWhile, List.dropWhile_cons_of_neg hblank, List.takeWhile_cons_of_neg hblank]
  exact dif_neg hcomment

/-- A byte outside ASCII is found as a malformed token of its own. -/
theorem next_of_le {s : Scanner} {p : Position} {b : UInt8} {rest : List UInt8}
    (hskip : s.skipTrivia = ⟨b :: rest, p⟩) (hb : 128 ≤ b.toNat) :
    s.next = (.between (.malformed (.unexpected (shownChar b rest))) p (p.nextByte b),
      ⟨rest, p.nextByte b⟩) := by
  rw [next_of_rest_eq_cons (congrArg Scanner.rest hskip), hskip, scanByte_of_le hb]
  rfl

end Scanner

/-! ## All tokens -/

/-- A token of one byte ends behind its offset. -/
theorem between_nextByte (kind : TokenKind) (p : Position) (b : UInt8) :
    Token.between kind p (p.nextByte b) =
      ⟨kind, ⟨.ofNat p.offset, .ofNat p.offset + 1⟩, p.line⟩ := by
  rw [Token.between, Position.nextByte, UInt32.ofNat_add]
  rfl

/-- A malformed token for each of some bytes. -/
def strayTokens (start : UInt32) (line : Nat) : List UInt8 → List Token
  | [] => []
  | b :: bytes =>
    ⟨.malformed (.unexpected (Char.ofUInt8 b)), ⟨start, start + 1⟩, line⟩ ::
      strayTokens (start + 1) line bytes

/-- What the bytes of a token are found as: a character that begins no token as one malformed token
for each of its bytes, of which the first one shows the character. -/
def Token.bytewise (t : Token) : List Token :=
  match t.kind with
  | .malformed (.unexpected c) =>
    ⟨t.kind, ⟨t.span.start, t.span.start + 1⟩, t.line⟩ ::
      strayTokens (t.span.start + 1) t.line (String.utf8EncodeChar c).tail
  | _ => [t]

theorem length_strayTokens (start : UInt32) (line : Nat) (bytes : List UInt8) :
    (strayTokens start line bytes).length = bytes.length := by
  induction bytes generalizing start with
  | nil => rfl
  | cons b bytes ih => exact congrArg (· + 1) (ih (start + 1))

/-- A character is unexpected where it begins no token. -/
theorem eq_of_scan_eq_unexpected {c d : Char} {rest : List Char} {n : Nat}
    (h : scan c rest = (.malformed (.unexpected d), n)) : d = c ∧ n = 0 := by
  have hstring : (scanString [] 0 rest).1 ≠ .malformed (.unexpected d) := by
    obtain hquoted | ⟨text, hquoted⟩ := scanString_cases [] 0 rest <;> simp [hquoted]
  have hinteger (base : Nat) (digits : List Char) :
      integerOf base digits ≠ .malformed (.unexpected d) := by
    obtain ⟨value, hvalue⟩ | hvalue := integerOf_cases base digits <;> simp [hvalue]
  rw [scan_eq] at h
  repeat' split at h
  · cases h
  · cases h
  · cases h
  · cases h
  · exact absurd (congrArg Prod.fst h) hstring
  · exact absurd (congrArg Prod.fst h) (hinteger 16 _)
  · exact absurd (congrArg Prod.fst h) (hinteger 10 _)
  · cases h
  · cases h
    exact ⟨rfl, rfl⟩

/-- A token that begins with an ASCII character is found as it is. -/
theorem bytewise_firstToken {c : Char} (hc : c.toNat < 128) (p : Position)
    (text rest : List Char) : (firstToken p text c rest).bytewise = [firstToken p text c rest] := by
  rw [Token.bytewise]
  split
  · next d hkind =>
      have hscan : scan c rest = (.malformed (.unexpected d), (scan c rest).2) :=
        Prod.ext hkind rfl
      obtain ⟨rfl, hlength⟩ := eq_of_scan_eq_unexpected hscan
      have hstop : tokenStop p text d rest = (tokenStart p text).nextByte d.toUInt8 := by
        rw [tokenStop, hlength, List.take_zero, ← Position.advanceBytes_utf8, utf8,
          List.flatMap_singleton, utf8EncodeChar_of_lt hc]
        rfl
      rw [utf8EncodeChar_of_lt hc, firstToken, hstop, between_nextByte]
      rfl
  · rfl

/-- A character outside ASCII is found as one malformed token for each of its bytes. -/
theorem bytewise_firstToken_of_le {c : Char} (hc : 128 ≤ c.toNat) (p : Position)
    (text rest : List Char) :
    (firstToken p text c rest).bytewise =
      ⟨.malformed (.unexpected c),
        ⟨.ofNat (tokenStart p text).offset, .ofNat (tokenStart p text).offset + 1⟩,
        (tokenStart p text).line⟩ ::
        strayTokens (.ofNat (tokenStart p text).offset + 1) (tokenStart p text).line
          (String.utf8EncodeChar c).tail := by
  rw [Token.bytewise, firstToken, scan_of_le hc]
  rfl

namespace Scanner

/-- A byte outside ASCII does not end its line. -/
theorem nextByte_of_le {b : UInt8} (hb : 128 ≤ b.toNat) (p : Position) :
    p.nextByte b = ⟨p.offset + 1, p.line⟩ := by
  have hnewline : b ≠ '\n'.toUInt8 := by
    rintro rfl
    exact absurd hb (by decide)
  rw [Position.nextByte, if_neg hnewline]

/-- Bytes that go on with a character are found one by one. -/
theorem take_strayTokens {bytes : List UInt8} (hbytes : ∀ b ∈ bytes, Continues b) (p : Position)
    (rest : List UInt8) (n : Nat) :
    (Scanner.mk (bytes ++ rest) p).take (bytes.length + n) =
      strayTokens (.ofNat p.offset) p.line bytes ++
        (Scanner.mk rest (p.advanceBytes bytes)).take n := by
  induction bytes generalizing p with
  | nil =>
      rw [List.length_nil, Nat.zero_add]
      rfl
  | cons b bytes ih =>
      rw [List.forall_mem_cons] at hbytes
      have hnext := next_of_le (skipTrivia_of_le hbytes.1.1 p (bytes ++ rest)) hbytes.1.1
      have hrest := ih hbytes.2 (p.nextByte b)
      rw [shownChar_of_continues hbytes.1, between_nextByte] at hnext
      rw [nextByte_of_le hbytes.1.1] at hnext hrest
      rw [List.length_cons, Nat.add_right_comm, List.cons_append, take, hnext, hrest,
        Position.advanceBytes, Position.advanceBytes, List.foldl_cons, nextByte_of_le hbytes.1.1,
        UInt32.ofNat_add]
      rfl

/-- The tokens that are found in the bytes of a text are those of the text, with each stray
character byte by byte. -/
theorem take_utf8 (p : Position) (text : List Char) :
    (Scanner.mk (utf8 text) p).take ((tokensAt p text).flatMap Token.bytewise).length =
      (tokensAt p text).flatMap Token.bytewise := by
  induction p, text using token_induction with
  | nil p text hdrop =>
      rw [tokensAt_of_drop_eq_nil hdrop]
      exact congrArg ([·]) (next_utf8_of_drop_eq_nil hdrop)
  | cons p text c rest hdrop ih =>
      rw [tokensAt_of_drop_eq_cons hdrop, List.flatMap_cons]
      rcases Nat.lt_or_ge c.toNat 128 with hlt | hle
      · rw [bytewise_firstToken hlt, List.singleton_append, List.length_cons, take,
          next_utf8 hdrop hlt, ih]
      · obtain ⟨b, tail, hbytes, htail, -⟩ := exists_bytes c
        have hb : 128 ≤ b.toNat := le_of_mem_utf8EncodeChar hle (hbytes ▸ List.mem_cons_self)
        have hskip := skipTrivia_utf8 p text
        rw [hdrop, utf8_cons, hbytes, List.cons_append] at hskip
        have hplace : tokenStop p text c rest =
            ((tokenStart p text).nextByte b).advanceBytes tail := by
          rw [tokenStop, scan_of_le hle, List.take_zero, ← Position.advanceBytes_utf8, utf8,
            List.flatMap_singleton, hbytes]
          rfl
        have hnext := next_of_le hskip hb
        have hothers := take_strayTokens htail ((tokenStart p text).nextByte b) (utf8 rest)
        rw [shownChar_utf8 hbytes, between_nextByte] at hnext
        rw [nextByte_of_le hb] at hnext hothers hplace
        rw [scan_of_le hle, List.drop_zero, hplace] at ih
        rw [bytewise_firstToken_of_le hle, hbytes, List.tail_cons, scan_of_le hle, List.drop_zero,
          List.cons_append, List.length_cons, List.length_append, length_strayTokens, take, hnext,
          hothers, hplace, ih, UInt32.ofNat_add]
        rfl

end Scanner

end SpirvLegality.Listing
