import SpirvLegality.Listing.Lexer

/-!
# Scanning bytes

A text is stored in bytes. A scanner goes over them one by one: it passes over blanks and comments,
reads the bytes of one token, and stops behind them, so that the next token can be asked for. A byte
that begins no token is malformed, and the scanner goes on behind this byte. Of a character outside
ASCII the first byte is reported as the character, and each further byte is malformed as well.
-/

namespace SpirvLegality

/-- The bytes of a source in a span. -/
def Span.bytes (s : Span) (source : List UInt8) : List UInt8 :=
  (source.take s.stop.toNat).drop s.start.toNat

namespace Listing

/-- The bytes of a text. -/
def sourceBytes (text : String) : List UInt8 := text.toByteArray.data.toList

/-- The place after one byte. -/
def Position.nextByte (p : Position) (b : UInt8) : Position where
  offset := p.offset + 1
  line := if b = '\n'.toUInt8 then p.line + 1 else p.line

/-- The place after some bytes. -/
def Position.advanceBytes (p : Position) (bytes : List UInt8) : Position := bytes.foldl nextByte p

/-- A blank within a line. -/
def isBlankByte (b : UInt8) : Bool := isInlineBlank (Char.ofUInt8 b)

/-- A byte of a name, a word or a number. -/
def isWordByte (b : UInt8) : Bool := isWordChar (Char.ofUInt8 b)

/-- A byte before the end of a line. -/
def isLineByte (b : UInt8) : Bool := b ≠ '\n'.toUInt8

/-- Whether some bytes begin with a comment. -/
def beginsComment : List UInt8 → Bool
  | [] => false
  | b :: rest => b = ';'.toUInt8 || b = '/'.toUInt8 && rest.head? = some '/'.toUInt8

/-- The characters of the word with which some bytes begin. -/
def leadingWord (bytes : List UInt8) : List Char := (bytes.takeWhile isWordByte).map Char.ofUInt8

/-- Reads the bytes of a quoted text after its first quotation mark, where a backslash takes the
byte after it as it stands. `content` is what was read so far, the last byte first, and `length`
counts the bytes of the token behind its first one. There is no content if the text does not end. -/
def scanQuoted (content : List UInt8) (length : Nat) : List UInt8 → Option (List UInt8) × Nat
  | [] => (none, length)
  | b :: rest =>
    if b = '\n'.toUInt8 then (none, length)
    else if b = '"'.toUInt8 then (some content.reverse, length + 1)
    else if b = '\\'.toUInt8 then
      match rest with
      | [] => (none, length + 1)
      | c :: rest =>
        if c = '\n'.toUInt8 then (none, length + 1)
        else scanQuoted (c :: content) (length + 2) rest
    else scanQuoted (b :: content) (length + 1) rest

/-- The token of a quoted text, whose bytes have to be UTF-8. -/
def stringOf (content : Option (List UInt8)) : TokenKind :=
  match content with
  | none => .malformed .unterminatedString
  | some bytes =>
    match String.fromUTF8? bytes.toByteArray with
    | some text => .string text
    | none => .malformed .invalidUtf8

/-- The character with which some bytes begin, or the one that has the number of the first byte if
the bytes are not UTF-8. -/
def shownChar (b : UInt8) (rest : List UInt8) : Char :=
  ((String.fromUTF8? (b :: rest).toByteArray).bind (·.toList.head?)).getD (Char.ofUInt8 b)

/-- The token that begins with a byte, and the number of its further bytes. -/
def scanByte (b : UInt8) (rest : List UInt8) : TokenKind × Nat :=
  let c := Char.ofUInt8 b
  if c = '\n' then (.newline, 0)
  else if c = '=' then (.equals, 0)
  else if c = '%' then
    let name := leadingWord rest
    if name.isEmpty then (.malformed .emptyId, 0) else (.id (String.ofList name), name.length)
  else if c = '"' then
    let (content, length) := scanQuoted [] 0 rest
    (stringOf content, length)
  else if c.isDigit then
    if c = '0' ∧ (rest.head? = some 'x'.toUInt8 ∨ rest.head? = some 'X'.toUInt8) then
      let digits := leadingWord rest.tail
      (integerOf 16 digits, digits.length + 1)
    else
      let digits := leadingWord rest
      (integerOf 10 (c :: digits), digits.length)
  else if c.isAlpha || c = '_' then
    let word := leadingWord rest
    (.word (String.ofList (c :: word)), word.length)
  else (.malformed (.unexpected (shownChar b rest)), 0)

/-- The bytes that were not read yet, and their place. -/
structure Scanner where
  rest : List UInt8
  place : Position := {}

namespace Scanner

/-- A scanner at the beginning of a text. -/
def ofString (text : String) : Scanner where
  rest := sourceBytes text

/-- Passes over some bytes. -/
def skip (s : Scanner) (n : Nat) : Scanner where
  rest := s.rest.drop n
  place := s.place.advanceBytes (s.rest.take n)

/-- Passes over the bytes up to the first one that fails a test. -/
def skipWhile (s : Scanner) (test : UInt8 → Bool) : Scanner where
  rest := s.rest.dropWhile test
  place := s.place.advanceBytes (s.rest.takeWhile test)

/-- Passing over a comment reads at least one byte. -/
theorem length_rest_skipWhile_lt {s : Scanner} (h : beginsComment s.rest = true) :
    (s.skipWhile isLineByte).rest.length < s.rest.length := by
  rw [skipWhile]
  cases hrest : s.rest with
  | nil =>
      rw [hrest] at h
      cases h
  | cons b rest =>
      have hline : isLineByte b = true := by
        simp only [hrest, beginsComment, Bool.or_eq_true, Bool.and_eq_true,
          decide_eq_true_eq] at h
        rcases h with rfl | ⟨rfl, -⟩ <;> decide
      show ((b :: rest).dropWhile isLineByte).length < (b :: rest).length
      rw [List.dropWhile_cons_of_pos hline]
      exact Nat.lt_succ_of_le (List.dropWhile_sublist isLineByte).length_le

/-- Passes over blanks and comments. -/
def skipTrivia (s : Scanner) : Scanner :=
  let start := s.skipWhile isBlankByte
  if _h : beginsComment start.rest then (start.skipWhile isLineByte).skipTrivia else start
termination_by s.rest.length
decreasing_by
  exact Nat.lt_of_lt_of_le (length_rest_skipWhile_lt _h)
    (List.dropWhile_sublist isBlankByte).length_le

/-- The next token, and the scanner behind it. -/
def next (s : Scanner) : Token × Scanner :=
  let start := s.skipTrivia
  match start.rest with
  | [] => (.between .stop start.place start.place, start)
  | b :: rest =>
    let (kind, length) := scanByte b rest
    let stop := start.skip (length + 1)
    (.between kind start.place stop.place, stop)

/-- The tokens that are found when the next one is asked for a number of times. -/
def take : Nat → Scanner → List Token
  | 0, _ => []
  | n + 1, s => s.next.1 :: take n s.next.2

end Scanner

end Listing

end SpirvLegality
