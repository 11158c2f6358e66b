import SpirvLegality.Instruction
import SpirvLegality.Text.Quoted

/-!
# Tokens of a listing

The words of assembly text. A malformed word is a token of its own, so that a reader decides what
it means where it stands. Line feeds are tokens, because each line holds one instruction.
-/

namespace SpirvLegality.Listing

/-- Why a word is malformed. -/
inductive LexicalError where
  | emptyId
  | unterminatedString
  | invalidUtf8
  | invalidInteger (digits : String)
  | unexpected (c : Char)
deriving DecidableEq, Repr

/-- The wording of a malformed word. -/
def LexicalError.message : LexicalError → String
  | .emptyId => "empty id after '%'"
  | .unterminatedString => "unterminated string"
  | .invalidUtf8 => "string is not valid UTF-8"
  | .invalidInteger digits => "invalid integer literal '" ++ digits ++ "'"
  | .unexpected c => "unexpected character '" ++ String.singleton c ++ "'"

/-- A word of a listing, without its place. -/
inductive TokenKind where
  | stop
  | newline
  | equals
  /-- A percent sign and the name of a value. -/
  | id (name : String)
  | word (text : String)
  | integer (value : UInt32)
  | string (text : String)
  | malformed (error : LexicalError)
deriving DecidableEq, Repr

namespace TokenKind

/-- How an error message shows a token. -/
def text : TokenKind → String
  | .stop => "Eof"
  | .newline => "Newline"
  | .equals => "Eq"
  | .id name => "IdRef(" ++ Text.quote name ++ ")"
  | .word text => "Ident(" ++ Text.quote text ++ ")"
  | .integer value => "Int(" ++ toString value.toNat ++ ")"
  | .string text => "Str(" ++ Text.quote text ++ ")"
  | .malformed error => "Error(" ++ Text.quote error.message ++ ")"

/-- Whether a token ends a line. -/
def endsLine : TokenKind → Bool
  | .newline | .stop => true
  | _ => false

end TokenKind

/-- A word of a listing with its bytes and the line on which it begins. -/
structure Token where
  kind : TokenKind
  span : Span
  line : Nat
deriving DecidableEq, Repr

/-- A place in a text: the number of bytes before it and the number of its line, from one. -/
structure Position where
  offset : Nat := 0
  line : Nat := 1
deriving DecidableEq, Repr

namespace Position

/-- The place after one character. -/
def next (p : Position) (c : Char) : Position where
  offset := p.offset + c.utf8Size
  line := if c = '\n' then p.line + 1 else p.line

/-- The place after some characters. -/
def advance (p : Position) (text : List Char) : Position := text.foldl next p

end Position

/-- A token between two places. Its offsets are cut off to words of 32 bits. -/
def Token.between (kind : TokenKind) (start stop : Position) : Token where
  kind := kind
  span := ⟨.ofNat start.offset, .ofNat stop.offset⟩
  line := start.line

@[simp] theorem Token.kind_between (kind : TokenKind) (start stop : Position) :
    (between kind start stop).kind = kind :=
  rfl

end SpirvLegality.Listing
