/-!
# Layout in lines

Nested text, laid out in lines. A block begins with an opening text, puts each of its items on lines
of its own, indented one step further, and goes on behind them on a line of its own. What is put
before or behind a layout stays on its first or last line.
-/

namespace SpirvLegality.Text

/-- The text of some lines, each of which ends in a line feed. -/
def ofLines (lines : List String) : String := lines.foldl (fun out line => out ++ line ++ "\n") ""

/-- Text in lines: either on one line, or an opening, items on lines of their own, and what follows
them. -/
inductive Layout where
  | line (text : String)
  | block (opening : String) (items : List Layout) (closing : Layout)

namespace Layout

/-- Text in front of the first line. -/
def before (text : String) : Layout → Layout
  | .line rest => .line (text ++ rest)
  | .block opening items closing => .block (text ++ opening) items closing

/-- A layout that goes on with another one on its last line. -/
def join : Layout → Layout → Layout
  | .line text, next => next.before text
  | .block opening items closing, next => .block opening items (closing.join next)

/-- Text behind the last line. -/
def behind (text : String) (layout : Layout) : Layout := layout.join (.line text)

/-- Brackets around items; without items the brackets meet. -/
def bracket (opening closing : String) (items : List Layout) : Layout :=
  if items.isEmpty then .line (opening ++ closing) else .block opening items (.line closing)

/-- A comma behind every item. -/
def terminate (items : List Layout) : List Layout := items.map (behind ",")

/-- A comma behind every item but the last. -/
def separate (items : List Layout) : List Layout :=
  items.dropLast.map (behind ",") ++ items.getLast?.toList

/-- Writes a layout behind `out`. Lines are indented by `margin`, and those of items by a further
`step`. -/
def write (step margin out : String) : Layout → String
  | .line text => out ++ text
  | .block opening items closing =>
    let inner := margin ++ step
    let body := items.foldl (fun out item => write step inner (out ++ inner) item ++ "\n")
      (out ++ opening ++ "\n")
    write step margin (body ++ margin) closing

/-- The text of a layout, with a line feed at its end. -/
def text (step : String) (layout : Layout) : String := layout.write step "" "" ++ "\n"

end Layout

end SpirvLegality.Text
