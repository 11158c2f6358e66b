import SpirvLegality.Text.Layout
import SpirvLegality.Text.Quoted

/-!
# JSON records

The part of JSON that reports need, and its text with one item on a line. Texts are quoted so that
only quotation marks, backslashes and control characters are escaped.
-/

namespace SpirvLegality

/-- A JSON value whose numbers are natural. -/
inductive Json where
  | null
  | num (value : Nat)
  | str (text : String)
  | arr (items : List Json)
  | obj (fields : List (String × Json))
deriving Repr, Inhabited

namespace Json

/-- How a character stands inside a JSON string. -/
def quoteChar (c : Char) : List Char :=
  if c = '"' then ['\\', '"']
  else if c = '\\' then ['\\', '\\']
  else if c = '\x08' then ['\\', 'b']
  else if c = '\t' then ['\\', 't']
  else if c = '\n' then ['\\', 'n']
  else if c = '\x0c' then ['\\', 'f']
  else if c = '\r' then ['\\', 'r']
  else if c.toNat < 0x20 then
    ['\\', 'u', '0', '0'] ++ (if c.toNat < 0x10 then ['0'] else []) ++ Text.hexDigits c.toNat
  else [c]

/-- A text as a JSON string. -/
def quote (text : String) : String :=
  String.ofList ('"' :: text.toList.flatMap quoteChar ++ ['"'])

/-- The layout of a value, with a comma behind every item but the last. -/
def layout : Json → Text.Layout
  | .null => .line "null"
  | .num value => .line (toString value)
  | .str text => .line (quote text)
  | .arr items => .bracket "[" "]" (Text.Layout.separate (items.map layout))
  | .obj fields =>
    .bracket "\x7b" "\x7d" (Text.Layout.separate (fields.map fun field =>
      .before (quote field.1 ++ ": ") (layout field.2)))
decreasing_by
  · have := List.sizeOf_lt_of_mem ‹_›
    simp
    omega
  · have := List.sizeOf_lt_of_mem ‹field ∈ fields›
    cases field
    simp at this ⊢
    omega

/-- The text of a value, with one item on a line. -/
def text (value : Json) : String := value.layout.text "  "

/-- A text for each item. -/
def strs {α : Type} (text : α → String) (items : List α) : Json :=
  .arr (items.map fun item => .str (text item))

end Json

end SpirvLegality
