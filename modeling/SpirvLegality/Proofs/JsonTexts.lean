import Mathlib.Data.List.Forall2
import SpirvLegality.Json

/-!
# Texts of JSON values

What it means that a text is JSON for a value, as a grammar on characters: how a character may stand
inside quotation marks (`Json.CharSpelledBy`), how items follow one another behind commas
(`Json.Separated`), and how a value is made of its parts with blanks between them
(`Json.SpelledBy`). A layout only adds blanks to what it lays out, so the text that is written for a
value spells that value (`Json.text_spells`).
-/

namespace SpirvLegality

namespace Json

/-! ## The grammar -/

/-- Characters that say nothing between the parts of a JSON text. -/
def Blank (text : List Char) : Prop := ∀ c ∈ text, c ∈ [' ', '\t', '\n', '\r']

theorem blank_nil : Blank [] := List.forall_mem_nil _

theorem Blank.append {text rest : List Char} (h : Blank text) (hrest : Blank rest) :
    Blank (text ++ rest) :=
  List.forall_mem_append.2 ⟨h, hrest⟩

theorem blank_newline : Blank ['\n'] := by simp [Blank]

/-- Blanks around what is spelled belong to it. -/
def TakesBlanks {α : Type} (Spelled : α → List Char → Prop) : Prop :=
  ∀ ⦃item before text behind⦄, Blank before → Spelled item text → Blank behind →
    Spelled item (before ++ text ++ behind)

/-- The letters that stand for a character behind a backslash. -/
def escapes : List (Char × Char) :=
  [('"', '"'), ('\\', '\\'), ('\x08', 'b'), ('\t', 't'), ('\n', 'n'), ('\x0c', 'f'), ('\r', 'r')]

/-- How a character may stand inside quotation marks: as itself, unless it is a quotation mark, a
backslash or a control character, or behind a backslash by its letter or by four hexadecimal
digits. -/
inductive CharSpelledBy : Char → List Char → Prop
  | plain {c : Char} (hcontrol : 0x20 ≤ c.toNat) (hquote : c ≠ '"') (hbackslash : c ≠ '\\') :
      CharSpelledBy c [c]
  | letter {c letter : Char} (h : (c, letter) ∈ escapes) : CharSpelledBy c ['\\', letter]
  | digits {c : Char} {digits : List Nat} (hlength : digits.length = 4)
      (hdigits : ∀ digit ∈ digits, digit < 16)
      (hvalue : digits.foldl (fun value digit => 16 * value + digit) 0 = c.toNat) :
      CharSpelledBy c ('\\' :: 'u' :: digits.map Nat.digitChar)

/-- The characters of a text between quotation marks. -/
def StringSpelledBy (text : String) (spelling : List Char) : Prop :=
  ∃ pieces, List.Forall₂ CharSpelledBy text.toList pieces ∧
    spelling = '"' :: pieces.flatten ++ ['"']

/-- Items, each of them spelled, with a comma between two of them. -/
inductive Separated {α : Type} (Spelled : α → List Char → Prop) : List α → List Char → Prop
  | none {blanks : List Char} (hblank : Blank blanks) : Separated Spelled [] blanks
  | one {item : α} {text : List Char} (h : Spelled item text) : Separated Spelled [item] text
  | more {item next : α} {items : List α} {text rest : List Char} (h : Spelled item text)
      (hrest : Separated Spelled (next :: items) rest) :
      Separated Spelled (item :: next :: items) (text ++ ',' :: rest)

mutual

/-- A text is JSON for a value. -/
inductive SpelledBy : Json → List Char → Prop
  | null : SpelledBy .null ['n', 'u', 'l', 'l']
  | num (value : Nat) : SpelledBy (.num value) (toString value).toList
  | str {text : String} {spelling : List Char} (h : StringSpelledBy text spelling) :
      SpelledBy (.str text) spelling
  | arr {items : List Json} {text : List Char} (h : Separated SpelledBy items text) :
      SpelledBy (.arr items) ('[' :: text ++ [']'])
  | obj {fields : List (String × Json)} {text : List Char}
      (h : Separated FieldSpelledBy fields text) :
      SpelledBy (.obj fields) ('\x7b' :: text ++ ['\x7d'])
  | padded {value : Json} {before text behind : List Char} (hbefore : Blank before)
      (h : SpelledBy value text) (hbehind : Blank behind) :
      SpelledBy value (before ++ text ++ behind)

/-- A text is JSON for a field: its name, a colon and its value. -/
inductive FieldSpelledBy : String × Json → List Char → Prop
  | field {name : String} {value : Json} {before spelling between text : List Char}
      (hbefore : Blank before) (hname : StringSpelledBy name spelling) (hbetween : Blank between)
      (hvalue : SpelledBy value text) :
      FieldSpelledBy (name, value) (before ++ spelling ++ between ++ ':' :: text)

end

theorem takesBlanks_spelledBy : TakesBlanks SpelledBy := fun _ _ _ _ => .padded

/-- Blanks in front of a field stand before its name, and those behind it behind its value. -/
theorem takesBlanks_fieldSpelledBy : TakesBlanks FieldSpelledBy := by
  intro field before text behind hbefore h hbehind
  cases h with
  | field hblanks hname hbetween hvalue =>
      have hfield := FieldSpelledBy.field (hbefore.append hblanks) hname hbetween
        (.padded blank_nil hvalue hbehind)
      simpa only [List.append_assoc, List.cons_append, List.nil_append] using hfield

/-- Blanks around items stand before the first and behind the last of them. -/
theorem TakesBlanks.separated {α : Type} {Spelled : α → List Char → Prop}
    (h : TakesBlanks Spelled) : TakesBlanks (Separated Spelled) := by
  intro items before text behind hbefore hitems hbehind
  induction hitems generalizing before with
  | none hblank => exact .none ((hbefore.append hblank).append hbehind)
  | one hitem => exact .one (h hbefore hitem hbehind)
  | more hitem _ ih =>
      have hmore := Separated.more (h hbefore hitem blank_nil) (ih blank_nil)
      simpa only [List.append_assoc, List.cons_append, List.nil_append, List.append_nil] using hmore

/-! ## Strings -/

/-- A control character has two digits behind two zeros. -/
theorem hexDigits_control : ∀ n < 0x20,
    ['0', '0'] ++ (if n < 0x10 then ['0'] else []) ++ Text.hexDigits n =
      [0, 0, n / 16, n % 16].map Nat.digitChar := by
  decide

theorem charSpelledBy_quoteChar (c : Char) : CharSpelledBy c (quoteChar c) := by
  have hletter {letter : Char} (h : (c, letter) ∈ escapes) : CharSpelledBy c ['\\', letter] :=
    .letter h
  have hdigits (h : c.toNat < 0x20) : CharSpelledBy c
      (['\\', 'u', '0', '0'] ++ (if c.toNat < 0x10 then ['0'] else []) ++
        Text.hexDigits c.toNat) := by
    have hcode : CharSpelledBy c ('\\' :: 'u' :: [0, 0, c.toNat / 16, c.toNat % 16].map
        Nat.digitChar) :=
      .digits rfl (by simp; omega) (by simp; omega)
    rw [← hexDigits_control _ h] at hcode
    exact hcode
  rw [quoteChar]
  refine iteInduction (fun h => hletter (by rw [h]; decide)) fun hquote => ?_
  refine iteInduction (fun h => hletter (by rw [h]; decide)) fun hbackslash => ?_
  iterate 5 refine iteInduction (fun h => hletter (by rw [h]; decide)) fun _ => ?_
  exact iteInduction hdigits fun hcontrol => .plain (Nat.le_of_not_lt hcontrol) hquote hbackslash

/-- A quoted text spells the text. -/
theorem stringSpelledBy_quote (text : String) : StringSpelledBy text (quote text).toList := by
  refine ⟨text.toList.map quoteChar, ?_, ?_⟩
  · exact List.forall₂_map_right_iff.2 (List.forall₂_same.2 fun c _ => charSpelledBy_quoteChar c)
  · rw [quote, String.toList_ofList, List.flatMap_def]

end Json

/-! ## Layouts -/

namespace Text.Layout

variable {step margin : String} {layout : Layout} {text : List Char}

/-- A layout puts a text behind what is written already. -/
def Writes (step margin : String) (layout : Layout) (text : List Char) : Prop :=
  ∀ out, (layout.write step margin out).toList = out.toList ++ text

theorem writes_line (text : String) : (line text).Writes step margin text.toList := by
  intro out
  rw [write, String.toList_append]

theorem write_before (front out : String) (layout : Layout) :
    (layout.before front).write step margin out = layout.write step margin (out ++ front) := by
  cases layout <;> simp only [before, write, String.append_assoc]

theorem write_join (layout next : Layout) (out : String) :
    (layout.join next).write step margin out =
      next.write step margin (layout.write step margin out) := by
  fun_induction join layout next generalizing out with
  | case1 text next => rw [write_before, write]
  | case2 opening items closing next ih => simp only [write, ih]

theorem Writes.before (h : layout.Writes step margin text) (front : String) :
    (layout.before front).Writes step margin (front.toList ++ text) := by
  intro out
  rw [write_before, h, String.toList_append, List.append_assoc]

theorem Writes.behind (h : layout.Writes step margin text) (rest : String) :
    (layout.behind rest).Writes step margin (text ++ rest.toList) := by
  intro out
  rw [Layout.behind, write_join, writes_line, h, List.append_assoc]

/-- Texts on lines of their own, behind a margin. -/
def rows (margin : String) (texts : List (List Char)) : List Char :=
  texts.flatMap fun text => margin.toList ++ text ++ ['\n']

theorem rows_nil (margin : String) : rows margin [] = [] := rfl

theorem rows_cons (margin : String) (text : List Char) (texts : List (List Char)) :
    rows margin (text :: texts) = margin.toList ++ text ++ '\n' :: rows margin texts := by
  simp [rows]

/-- The items of a block stand in rows. -/
theorem Writes.block {items : List Layout} {texts : List (List Char)}
    (h : List.Forall₂ (Writes step (margin ++ step)) items texts) (opening closing : String) :
    (Layout.block opening items (.line closing)).Writes step margin
      (opening.toList ++ '\n' :: rows (margin ++ step) texts ++ margin.toList ++
        closing.toList) := by
  have hbody (out : String) : (items.foldl (fun out item =>
      item.write step (margin ++ step) (out ++ (margin ++ step)) ++ "\n") out).toList =
        out.toList ++ rows (margin ++ step) texts := by
    induction h generalizing out with
    | nil => simp [rows_nil]
    | cons hitem _ ih =>
        rw [List.foldl_cons, ih, rows_cons, String.toList_append, hitem, String.toList_append]
        simp
  intro out
  rw [write, writes_line, String.toList_append, hbody]
  simp

end Text.Layout

namespace Json

open Text.Layout

variable {step margin : String}

theorem blank_inner (hstep : Blank step.toList) (hmargin : Blank margin.toList) :
    Blank (margin ++ step).toList := by
  rw [String.toList_append]
  exact hmargin.append hstep

section Items

variable {α : Type} {Spelled : α → List Char → Prop} {layout : α → Text.Layout} {items : List α}

/-- Items in rows, with a comma behind all but the last. -/
theorem exists_rows_separate (hblanks : TakesBlanks Spelled) (hmargin : Blank margin.toList)
    (h : ∀ item ∈ items, ∃ text, Spelled item text ∧ (layout item).Writes step margin text) :
    ∃ texts, List.Forall₂ (Writes step margin) (separate (items.map layout)) texts ∧
      Separated Spelled items (rows margin texts) := by
  induction items with
  | nil => exact ⟨[], .nil, .none blank_nil⟩
  | cons item items ih =>
      obtain ⟨⟨text, hspelled, hwrites⟩, hrest⟩ := List.forall_mem_cons.1 h
      cases items with
      | nil =>
          have hone := Separated.one (hblanks hmargin hspelled blank_newline)
          exact ⟨[text], .cons hwrites .nil, by simpa only [rows_cons, rows_nil] using hone⟩
      | cons next items =>
          -- The line feed behind the comma is a blank in front of the next item.
          obtain ⟨texts, hwritten, hseparated⟩ := ih hrest
          have hmore := Separated.more (hblanks hmargin hspelled blank_nil)
            (hblanks.separated blank_newline hseparated blank_nil)
          exact ⟨(text ++ [',']) :: texts, .cons (hwrites.behind ",") hwritten,
            by simpa [rows_cons] using hmore⟩

/-- Brackets hold their items, and where these stand in rows, blanks around them. -/
theorem exists_separated_bracket (hblanks : TakesBlanks Spelled) (hstep : Blank step.toList)
    (hmargin : Blank margin.toList)
    (h : ∀ item ∈ items,
      ∃ text, Spelled item text ∧ (layout item).Writes step (margin ++ step) text)
    (opening closing : String) :
    ∃ text, Separated Spelled items text ∧
      (bracket opening closing (separate (items.map layout))).Writes step margin
        (opening.toList ++ text ++ closing.toList) := by
  cases items with
  | nil =>
      refine ⟨[], .none blank_nil, ?_⟩
      rw [List.append_nil, ← String.toList_append]
      exact writes_line (opening ++ closing)
  | cons item items =>
      obtain ⟨texts, hwritten, hseparated⟩ :=
        exists_rows_separate hblanks (blank_inner hstep hmargin) h
      refine ⟨_, hblanks.separated blank_newline hseparated hmargin, ?_⟩
      have hsome : (separate ((item :: items).map layout)).isEmpty = false := by
        simp [separate]
      rw [bracket, hsome, if_neg Bool.false_ne_true]
      simpa using Writes.block hwritten opening closing

end Items

/-- The layout of a value writes a text that spells the value. -/
theorem exists_spelledBy_layout (value : Json) (hstep : Blank step.toList)
    (hmargin : Blank margin.toList) :
    ∃ text, value.SpelledBy text ∧ value.layout.Writes step margin text := by
  induction value using layout.induct generalizing margin with
  | case1 => exact ⟨_, .null, by rw [layout]; exact writes_line "null"⟩
  | case2 value => exact ⟨_, .num value, by rw [layout]; exact writes_line _⟩
  | case3 text => exact ⟨_, .str (stringSpelledBy_quote text), by rw [layout]; exact writes_line _⟩
  | case4 items ih =>
      have hinner := blank_inner hstep hmargin
      obtain ⟨text, hseparated, hwrites⟩ := exists_separated_bracket takesBlanks_spelledBy hstep
        hmargin (fun item hitem => ih item hitem hinner) "[" "]"
      exact ⟨_, .arr hseparated, by rw [layout]; exact hwrites⟩
  | case5 fields ih =>
      have hinner := blank_inner hstep hmargin
      have hfield (field : String × Json) (hmem : field ∈ fields) :
          ∃ text, FieldSpelledBy field text ∧
            (Text.Layout.before (quote field.1 ++ ": ") field.2.layout).Writes step
              (margin ++ step) text := by
        obtain ⟨text, hvalue, hwrites⟩ := ih field hmem hinner
        have hblank : Blank [' '] := by simp [Blank]
        have hspelled := FieldSpelledBy.field blank_nil (stringSpelledBy_quote field.1) blank_nil
          (.padded hblank hvalue blank_nil)
        exact ⟨_, by simpa using hspelled, hwrites.before _⟩
      obtain ⟨text, hseparated, hwrites⟩ :=
        exists_separated_bracket takesBlanks_fieldSpelledBy hstep hmargin hfield "\x7b" "\x7d"
      exact ⟨_, .obj hseparated, by rw [layout]; exact hwrites⟩

/-- The text of a value spells the value. -/
theorem text_spells (value : Json) : value.SpelledBy value.text.toList := by
  have hstep : Blank "  ".toList := by simp [Blank]
  have hmargin : Blank "".toList := blank_nil
  obtain ⟨text, hspelled, hwrites⟩ := value.exists_spelledBy_layout hstep hmargin
  have htext : value.text.toList = text ++ ['\n'] := by
    rw [Json.text, Text.Layout.text, String.toList_append, hwrites]
    rfl
  rw [htext]
  exact .padded blank_nil hspelled blank_newline

end Json

end SpirvLegality
