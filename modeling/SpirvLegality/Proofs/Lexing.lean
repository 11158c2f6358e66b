import SpirvLegality.Listing.Lexer

/-!
# The tokens of a text without their places

What a token is depends only on the characters from it on, not on where it stands. `kindsFrom` gives
the kinds of the tokens of some characters: blanks are dropped, one token is read, and the rest is
read in the same way (`kindsFrom_of_drop_eq_cons`). The last token, and only the last, marks the end
(`map_kind_tokens`, `stop_not_mem_kinds`).
-/

namespace SpirvLegality.Listing

/-- The kinds of the tokens of some characters, up to the end. -/
def kindsFrom (text : List Char) : List TokenKind :=
  match _h : text.drop (blankLength text) with
  | [] => []
  | c :: rest => (scan c rest).1 :: kindsFrom (rest.drop (scan c rest).2)
termination_by text.length
decreasing_by
  have hdrop := congrArg List.length _h
  simp only [List.length_drop, List.length_cons] at hdrop ⊢
  omega

/-- Where only blanks are left, there is no further token. -/
theorem kindsFrom_of_drop_eq_nil {text : List Char} (h : text.drop (blankLength text) = []) :
    kindsFrom text = [] := by
  rw [kindsFrom]
  split
  · rfl
  · next hcons =>
      rw [h] at hcons
      cases hcons

/-- The token that follows the blanks, and then the tokens of the rest. -/
theorem kindsFrom_of_drop_eq_cons {text : List Char} {c : Char} {rest : List Char}
    (h : text.drop (blankLength text) = c :: rest) :
    kindsFrom text = (scan c rest).1 :: kindsFrom (rest.drop (scan c rest).2) := by
  rw [kindsFrom]
  split
  · next hnil =>
      rw [h] at hnil
      cases hnil
  · next hcons =>
      rw [h] at hcons
      cases hcons
      rfl

/-- The kinds of the tokens do not depend on the place where reading starts. -/
theorem map_kind_tokensFrom (p : Position) (before : List Token) (text : List Char) :
    (tokensFrom p before text).reverse.map (·.kind) =
      before.reverse.map (·.kind) ++ kindsFrom text ++ [.stop] := by
  fun_induction tokensFrom p before text with
  | case1 p before text blank start hdrop =>
      rw [kindsFrom_of_drop_eq_nil hdrop]
      simp
  | case2 p before text blank start c rest hdrop kind length hscan stop ih =>
      rw [ih, kindsFrom_of_drop_eq_cons hdrop, hscan]
      simp

/-- What is read after a quotation mark is a text or not terminated. -/
theorem scanString_cases (content : List Char) (length : Nat) (rest : List Char) :
    (scanString content length rest).1 = .malformed .unterminatedString ∨
      ∃ text, (scanString content length rest).1 = .string text := by
  fun_induction scanString content length rest <;> simp_all

/-- Digits are read as a number or not at all. -/
theorem integerOf_cases (base : Nat) (digits : List Char) :
    (∃ value, integerOf base digits = .integer value) ∨
      integerOf base digits = .malformed (.invalidInteger (String.ofList digits)) := by
  unfold integerOf
  split <;> simp

/-- No token in a text marks its end. -/
theorem scanString_ne_stop (content : List Char) (length : Nat) (rest : List Char) :
    (scanString content length rest).1 ≠ .stop := by
  obtain h | ⟨text, h⟩ := scanString_cases content length rest <;> simp [h]

theorem integerOf_ne_stop (base : Nat) (digits : List Char) : integerOf base digits ≠ .stop := by
  obtain ⟨value, h⟩ | h := integerOf_cases base digits <;> simp [h]

theorem scan_ne_stop (c : Char) (rest : List Char) : (scan c rest).1 ≠ .stop := by
  simp only [scan]
  repeat' split
  · nofun
  · nofun
  · nofun
  · nofun
  · exact scanString_ne_stop [] 0 rest
  · exact integerOf_ne_stop 16 _
  · exact integerOf_ne_stop 16 _
  · exact integerOf_ne_stop 10 _
  · nofun
  · nofun

theorem stop_not_mem_kindsFrom (text : List Char) : TokenKind.stop ∉ kindsFrom text := by
  fun_induction kindsFrom text with
  | case1 text hdrop => exact List.not_mem_nil
  | case2 text c rest hdrop ih =>
      rw [List.mem_cons, not_or]
      exact ⟨(scan_ne_stop c rest).symm, ih⟩

/-- The kinds of the tokens of a text, without the one that marks the end. -/
def kinds (text : String) : List TokenKind := ((tokens text).map (·.kind)).dropLast

theorem kinds_eq (text : String) : kinds text = kindsFrom text.toList := by
  rw [kinds, tokens, map_kind_tokensFrom]
  simp

/-- The tokens of a text end with the mark of its end. -/
theorem map_kind_tokens (text : String) : (tokens text).map (·.kind) = kinds text ++ [.stop] := by
  rw [kinds_eq, tokens, map_kind_tokensFrom]
  rfl

/-- The end is marked nowhere else. -/
theorem stop_not_mem_kinds (text : String) : TokenKind.stop ∉ kinds text := by
  rw [kinds_eq]
  exact stop_not_mem_kindsFrom text.toList

end SpirvLegality.Listing
