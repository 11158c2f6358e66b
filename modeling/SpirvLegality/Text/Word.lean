/-!
# What a text begins with

`after?` removes a word from the beginning of a text. It succeeds exactly on the texts that begin
with the word, and what it returns is the rest. Where a text begins with characters of one kind and
goes on with another, or ends, the two parts are told apart (`append_inj_of_kind`).
-/

namespace SpirvLegality.Text

/-- The rest of a text after a word with which it begins. -/
def after? : (word text : List Char) → Option (List Char)
  | [], text => some text
  | _ :: _, [] => none
  | c :: word, d :: text => if c = d then after? word text else none

theorem after?_eq_some_iff {word text rest : List Char} :
    after? word text = some rest ↔ text = word ++ rest := by
  induction word generalizing text with
  | nil => simp [after?]
  | cons c word ih =>
    cases text with
    | nil => simp [after?]
    | cons d text =>
      by_cases h : c = d
      · subst h
        simp [after?, ih]
      · simp [after?, h, Ne.symm h]

section Kinds

variable {α : Type} {kind : α → Bool} {front front' rest rest' : List α}

/-- What is of a kind is taken up to where the list goes on differently. -/
theorem takeWhile_append_of_kind (hfront : ∀ a ∈ front, kind a = true)
    (hrest : ∀ a ∈ rest.head?, kind a = false) : (front ++ rest).takeWhile kind = front := by
  rw [List.takeWhile_append_of_pos hfront]
  cases rest with
  | nil => rw [List.takeWhile_nil, List.append_nil]
  | cons a rest => rw [List.takeWhile_cons_of_neg (by simp [hrest a rfl]), List.append_nil]

/-- What is left behind it is the rest. -/
theorem dropWhile_append_of_kind (hfront : ∀ a ∈ front, kind a = true)
    (hrest : ∀ a ∈ rest.head?, kind a = false) : (front ++ rest).dropWhile kind = rest := by
  rw [List.dropWhile_append_of_pos hfront]
  cases rest with
  | nil => rfl
  | cons a rest => rw [List.dropWhile_cons_of_neg (by simp [hrest a rfl])]

/-- What is of a kind, up to where a list goes on differently, is told apart from the rest. -/
theorem append_inj_of_kind (hfront : ∀ a ∈ front, kind a = true)
    (hfront' : ∀ a ∈ front', kind a = true) (hrest : ∀ a ∈ rest.head?, kind a = false)
    (hrest' : ∀ a ∈ rest'.head?, kind a = false) (h : front ++ rest = front' ++ rest') :
    front = front' ∧ rest = rest' := by
  constructor
  · rw [← takeWhile_append_of_kind hfront hrest, h, takeWhile_append_of_kind hfront' hrest']
  · rw [← dropWhile_append_of_kind hfront hrest, h, dropWhile_append_of_kind hfront' hrest']

end Kinds

end SpirvLegality.Text
