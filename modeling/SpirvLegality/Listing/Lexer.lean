import SpirvLegality.Listing.Token
import SpirvLegality.Text.Numeral

/-!
# Cutting a listing into tokens

Before each token stand blanks and possibly a comment, which runs from `;` or `//` to the end of the
line. `blankLength` measures them, and `scan` reads the token that follows and measures it. The
tokens of a text are found by going over it in these two steps until it ends, which it does because
every token has at least one character.
-/

namespace SpirvLegality.Listing

/-- A blank within a line. -/
def isInlineBlank (c : Char) : Bool := c = ' ' || c = '\t' || c = '\r'

/-- A character of a name, a word or a number: an ASCII letter or digit, a low line or a point. -/
def isWordChar (c : Char) : Bool := c.isAlphanum || c = '_' || c = '.'

/-- The number of characters of the comment with which a text begins. -/
def commentLength (text : List Char) : Nat :=
  match text with
  | ';' :: _ | '/' :: '/' :: _ => (text.takeWhile (· ≠ '\n')).length
  | _ => 0

/-- The number of characters before the first token of a text. -/
def blankLength (text : List Char) : Nat :=
  (text.takeWhile isInlineBlank).length + commentLength (text.dropWhile isInlineBlank)

/-- Reads a quoted text after its first quotation mark, where a backslash takes the character after
it as it stands. `content` is what was read so far, the last character first, and `length` counts
the characters of the token behind its first one. -/
def scanString (content : List Char) (length : Nat) : List Char → TokenKind × Nat
  | [] => (.malformed .unterminatedString, length)
  | '\n' :: _ => (.malformed .unterminatedString, length)
  | '"' :: _ => (.string (String.ofList content.reverse), length + 1)
  | ['\\'] => (.malformed .unterminatedString, length + 1)
  | '\\' :: '\n' :: _ => (.malformed .unterminatedString, length + 1)
  | '\\' :: c :: rest => scanString (c :: content) (length + 2) rest
  | c :: rest => scanString (c :: content) (length + 1) rest

/-- The number that some digits denote, if it fits into a word. -/
def integerOf (base : Nat) (digits : List Char) : TokenKind :=
  match Text.readNumeral base 4294967295 digits with
  | some value => .integer (UInt32.ofNat value)
  | none => .malformed (.invalidInteger (String.ofList digits))

/-- The token that begins with a character, and the number of its further characters. -/
def scan (c : Char) (rest : List Char) : TokenKind × Nat :=
  if c = '\n' then (.newline, 0)
  else if c = '=' then (.equals, 0)
  else if c = '%' then
    let name := rest.takeWhile isWordChar
    if name.isEmpty then (.malformed .emptyId, 0) else (.id (String.ofList name), name.length)
  else if c = '"' then scanString [] 0 rest
  else if c.isDigit then
    match c, rest with
    | '0', 'x' :: after | '0', 'X' :: after =>
      let digits := after.takeWhile isWordChar
      (integerOf 16 digits, digits.length + 1)
    | _, _ =>
      let digits := rest.takeWhile isWordChar
      (integerOf 10 (c :: digits), digits.length)
  else if c.isAlpha || c = '_' then
    let word := rest.takeWhile isWordChar
    (.word (String.ofList (c :: word)), word.length)
  else (.malformed (.unexpected c), 0)

/-- Goes over a text from a place on and puts its tokens before those in `before`, so that the last
one comes first. -/
def tokensFrom (p : Position) (before : List Token) (text : List Char) : List Token :=
  let blank := blankLength text
  let start := p.advance (text.take blank)
  match _h : text.drop blank with
  | [] => .between .stop start start :: before
  | c :: rest =>
    let (kind, length) := scan c rest
    let stop := start.advance (c :: rest.take length)
    tokensFrom stop (.between kind start stop :: before) (rest.drop length)
termination_by text.length
decreasing_by
  have hdrop := congrArg List.length _h
  simp only [List.length_drop, List.length_cons] at hdrop ⊢
  omega

/-- The tokens of a text, the last of which marks its end. -/
def tokens (text : String) : List Token := (tokensFrom {} [] text.toList).reverse

end SpirvLegality.Listing
