import Mathlib.Data.List.DropRight
import SpirvLegality.Listing.Reader
import SpirvLegality.Proofs.Lexing

/-!
# The lines of a text

The line feeds of a text cut its tokens into rows, and the lines of a listing are the rows that are
not empty (`map_kinds_lines`). Further line feeds beside a line feed or at the ends of a text add
empty rows only, so two texts that differ in no more than these have the same rows
(`rows_withoutLayout`).
-/

namespace SpirvLegality.Listing

/-- The groups of tokens between line feeds that are not empty. -/
def rows (kinds : List TokenKind) : List (List TokenKind) :=
  (kinds.splitOn .newline).filter (· ≠ [])

/-- The groups that are not empty, where some tokens stand before the first group. -/
def rowsBehind (current kinds : List TokenKind) : List (List TokenKind) :=
  ((kinds.splitOn .newline).modifyHead (current ++ ·)).filter (· ≠ [])

theorem rows_eq (kinds : List TokenKind) : rows kinds = rowsBehind [] kinds := by
  have hid : (([] : List TokenKind) ++ ·) = id := funext List.nil_append
  rw [rows, rowsBehind, hid, List.modifyHead_id]
  rfl

theorem rowsBehind_nil (current : List TokenKind) :
    rowsBehind current [] = if current = [] then [] else [current] := by
  by_cases h : current = [] <;> simp [rowsBehind, h]

/-- A line feed ends the group at hand. -/
theorem rowsBehind_newline (current kinds : List TokenKind) :
    rowsBehind current (.newline :: kinds) = rowsBehind current [] ++ rowsBehind [] kinds := by
  rw [← rows_eq, rowsBehind, List.splitOn, List.splitOnP_cons_eq_if_modifyHead,
    if_pos (by decide), List.modifyHead_cons, List.append_nil, rowsBehind_nil, rows]
  by_cases h : current = [] <;> simp [h, List.splitOn]

/-- Another token goes into the group at hand. -/
theorem rowsBehind_cons {kind : TokenKind} (h : kind ≠ .newline) (current kinds : List TokenKind) :
    rowsBehind current (kind :: kinds) = rowsBehind (current ++ [kind]) kinds := by
  have hkind : ¬ (kind == TokenKind.newline) = true := by simpa using h
  rw [rowsBehind, List.splitOn, List.splitOnP_cons_eq_if_modifyHead, if_neg hkind,
    List.modifyHead_modifyHead, rowsBehind]
  congr 2
  funext row
  simp

/-- The groups hold the tokens without the line feeds. -/
theorem flatten_rowsBehind (current kinds : List TokenKind) :
    (rowsBehind current kinds).flatten = current ++ kinds.filter (· ≠ .newline) := by
  have hnil (row : List TokenKind) : (rowsBehind row []).flatten = row := by
    by_cases h : row = [] <;> simp [rowsBehind_nil, h]
  induction kinds generalizing current with
  | nil => rw [hnil, List.filter_nil, List.append_nil]
  | cons kind rest ih =>
      by_cases hkind : kind = .newline
      · rw [hkind, rowsBehind_newline, List.flatten_append, hnil, ih]
        rfl
      · rw [rowsBehind_cons hkind, ih, List.filter_cons_of_pos (by simpa using hkind)]
        simp

/-- The tokens in the groups are those that are no line feeds. -/
theorem exists_mem_rows_iff {kind : TokenKind} {kinds : List TokenKind} :
    (∃ row ∈ rows kinds, kind ∈ row) ↔ kind ∈ kinds ∧ kind ≠ .newline := by
  rw [← List.mem_flatten, rows_eq, flatten_rowsBehind, List.nil_append, List.mem_filter,
    decide_eq_true_iff]

/-- Exchanging tokens other than line feeds keeps the groups. -/
theorem rowsBehind_map {g : TokenKind → TokenKind}
    (hg : ∀ kind, g kind = .newline ↔ kind = .newline) (current kinds : List TokenKind) :
    rowsBehind (current.map g) (kinds.map g) = (rowsBehind current kinds).map (List.map g) := by
  have hnil (row : List TokenKind) :
      rowsBehind (row.map g) [] = (rowsBehind row []).map (List.map g) := by
    by_cases h : row = [] <;> simp [rowsBehind_nil, h]
  induction kinds generalizing current with
  | nil => exact hnil current
  | cons kind rest ih =>
      rw [List.map_cons]
      by_cases hkind : kind = .newline
      · rw [(hg kind).2 hkind, hkind, rowsBehind_newline, rowsBehind_newline, hnil,
          List.map_append, ← ih []]
        rfl
      · have hmap : g kind ≠ .newline := fun h => hkind ((hg kind).1 h)
        rw [rowsBehind_cons hmap, rowsBehind_cons hkind, ← ih, List.map_append]
        rfl

theorem rows_map {g : TokenKind → TokenKind} (hg : ∀ kind, g kind = .newline ↔ kind = .newline)
    (kinds : List TokenKind) : rows (kinds.map g) = (rows kinds).map (List.map g) := by
  rw [rows_eq, rows_eq, ← rowsBehind_map hg]
  rfl

/-! ## The lines that are read -/

/-- The kinds of the tokens of a line. -/
def Line.kinds (line : Line) : List TokenKind := (line.first :: line.others).map (·.kind)

/-- Closing a line adds it, unless it is empty. -/
theorem map_kinds_closeLine (current : List Token) (terminator : Token) (before : List Line) :
    (closeLine current terminator before).reverse.map Line.kinds =
      before.reverse.map Line.kinds ++ rowsBehind (current.reverse.map (·.kind)) [] := by
  unfold closeLine
  rw [rowsBehind_nil]
  cases hcurrent : current.reverse with
  | nil => simp
  | cons first others => simp [Line.kinds]

/-- Grouping tokens into lines cuts their kinds into rows. -/
theorem map_kinds_linesFrom {kinds : List TokenKind} (hstop : .stop ∉ kinds)
    (current : List Token) (before : List Line) {tokens : List Token}
    (h : tokens.map (·.kind) = kinds ++ [.stop]) :
    (linesFrom current before tokens).reverse.map Line.kinds =
      before.reverse.map Line.kinds ++ rowsBehind (current.reverse.map (·.kind)) kinds := by
  induction kinds generalizing current before tokens with
  | nil =>
      obtain ⟨token, rfl, htoken⟩ := List.map_eq_singleton_iff.1 h
      rw [linesFrom, if_pos (by rw [htoken]; rfl), linesFrom, map_kinds_closeLine]
  | cons kind kinds ih =>
      obtain ⟨token, rest, rfl, rfl, hrest⟩ := List.map_eq_cons_iff.1 h
      rw [List.mem_cons, not_or] at hstop
      by_cases hnewline : token.kind = .newline
      · rw [linesFrom, if_pos (by rw [hnewline]; rfl), ih hstop.2 _ _ hrest,
          map_kinds_closeLine, hnewline, rowsBehind_newline, List.append_assoc]
        rfl
      · have hends : ¬ token.kind.endsLine = true := by
          intro hends
          cases hkind : token.kind <;> simp_all [TokenKind.endsLine]
        rw [linesFrom, if_neg hends, ih hstop.2 _ _ hrest, rowsBehind_cons hnewline]
        simp

/-- The lines of a text are its rows that are not empty. -/
theorem map_kinds_lines (text : String) :
    (lines (tokens text)).map Line.kinds = rows (kinds text) := by
  rw [lines, map_kinds_linesFrom (stop_not_mem_kinds text) [] [] (map_kind_tokens text), rows_eq]
  rfl

/-! ## Layout -/

/-- Tokens with one line feed for every run of line feeds. -/
def collapseNewlines : List TokenKind → List TokenKind
  | [] => []
  | kind :: rest =>
    if kind = .newline ∧ rest.head? = some .newline then collapseNewlines rest
    else kind :: collapseNewlines rest

/-- Tokens with one line feed for every run of line feeds, and with none at the ends. -/
def withoutLayout (kinds : List TokenKind) : List TokenKind :=
  ((collapseNewlines kinds).dropWhile (· = .newline)).rdropWhile (· = .newline)

/-- Collapsing line feeds keeps the rows. -/
theorem rowsBehind_collapseNewlines (current kinds : List TokenKind) :
    rowsBehind current (collapseNewlines kinds) = rowsBehind current kinds := by
  induction kinds generalizing current with
  | nil => rfl
  | cons kind rest ih =>
      rw [collapseNewlines]
      split
      · next h =>
          obtain ⟨rfl, hrest⟩ := h
          obtain ⟨rest, rfl⟩ := List.head?_eq_some_iff.1 hrest
          rw [ih, rowsBehind_newline current (.newline :: rest), rowsBehind_newline,
            rowsBehind_newline []]
          rfl
      · by_cases hkind : kind = .newline
        · rw [hkind, rowsBehind_newline, rowsBehind_newline, ih]
        · rw [rowsBehind_cons hkind, rowsBehind_cons hkind, ih]

/-- Line feeds in front add no row. -/
theorem rows_dropWhile_newline (kinds : List TokenKind) :
    rows (kinds.dropWhile (· = .newline)) = rows kinds := by
  induction kinds with
  | nil => rfl
  | cons kind rest ih =>
      by_cases hkind : kind = .newline
      · rw [List.dropWhile_cons_of_pos (by simpa using hkind), ih, hkind, rows_eq, rows_eq,
          rowsBehind_newline]
        rfl
      · rw [List.dropWhile_cons_of_neg (by simpa using hkind)]

/-- A line feed at the end adds no row. -/
theorem rowsBehind_concat_newline (current kinds : List TokenKind) :
    rowsBehind current (kinds ++ [.newline]) = rowsBehind current kinds := by
  induction kinds generalizing current with
  | nil =>
      rw [List.nil_append, rowsBehind_newline]
      exact List.append_nil _
  | cons kind rest ih =>
      rw [List.cons_append]
      by_cases hkind : kind = .newline
      · rw [hkind, rowsBehind_newline, rowsBehind_newline, ih]
      · rw [rowsBehind_cons hkind, rowsBehind_cons hkind, ih]

/-- Line feeds at the end add no row. -/
theorem rows_rdropWhile_newline (kinds : List TokenKind) :
    rows (kinds.rdropWhile (· = .newline)) = rows kinds := by
  induction kinds using List.reverseRecOn with
  | nil => rfl
  | append_singleton kinds kind ih =>
      rw [List.rdropWhile_concat]
      split
      · next hkind =>
          rw [ih, of_decide_eq_true hkind, rows_eq, rows_eq, rowsBehind_concat_newline]
      · rfl

/-- Runs of line feeds, and line feeds at the ends, do not matter for the rows. -/
theorem rows_withoutLayout (kinds : List TokenKind) : rows (withoutLayout kinds) = rows kinds := by
  rw [withoutLayout, rows_rdropWhile_newline, rows_dropWhile_newline, rows_eq,
    rowsBehind_collapseNewlines, ← rows_eq]

end SpirvLegality.Listing
