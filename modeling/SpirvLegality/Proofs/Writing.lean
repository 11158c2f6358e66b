import Mathlib.Data.Nat.Digits.Defs
import SpirvLegality.Proofs.Lexing
import SpirvLegality.Text.Word

/-!
# Writing tokens

A list of tokens can be written in many ways: with blanks of any kind and number between the tokens,
with comments at the ends of lines, numbers in decimal or hexadecimal digits behind any number of
zeros, and quoted texts with more or fewer backslashes. `Writes` relates a list of tokens to all
texts that write it, and `tokens_of_writes` says that reading any of these texts gives the tokens
back.
-/

namespace SpirvLegality

/-! ## Numerals -/

namespace Text

/-- A character is a digit of a base, in either case, and has the given value. -/
def DigitOf (base : Nat) (c : Char) (digit : Nat) : Prop :=
  digit < base ∧ (c = Nat.digitChar digit ∨ c = (Nat.digitChar digit).toUpper)

/-- Some characters are the digits of a number in a base, behind any number of zeros. -/
def Numeral (base value : Nat) (digits : List Char) : Prop :=
  ∃ values : List Nat, List.Forall₂ (DigitOf base) digits values ∧ values ≠ [] ∧
    Nat.ofDigits base values.reverse = value

/-- The value of some digits behind others that have a value already. -/
def continued (base value : Nat) (values : List Nat) : Nat :=
  values.foldl (fun value digit => value * base + digit) value

theorem ofDigits_reverse (base : Nat) (values : List Nat) :
    Nat.ofDigits base values.reverse = continued base 0 values := by
  rw [Nat.ofDigits_eq_foldr, List.foldr_reverse, continued]
  congr 1
  funext value digit
  rw [Nat.cast_id, Nat.mul_comm, Nat.add_comm]

/-- Further digits do not make a number smaller. -/
theorem le_continued {base : Nat} (hbase : 0 < base) (value : Nat) (values : List Nat) :
    value ≤ continued base value values := by
  induction values generalizing value with
  | nil => exact Nat.le_refl value
  | cons digit rest ih =>
      calc value ≤ value * base := Nat.le_mul_of_pos_right value hbase
        _ ≤ value * base + digit := Nat.le_add_right _ digit
        _ ≤ continued base (value * base + digit) rest := ih _

/-- A digit is read as its value. -/
theorem DigitOf.digitValue?_eq {base digit : Nat} {c : Char} (h : DigitOf base c digit)
    (hbase : base ≤ 16) : digitValue? base c = some digit := by
  obtain ⟨hlt, hc⟩ := h
  have hread : ∀ digit : Fin 16, digitValue? 16 (Nat.digitChar digit) = some digit.val ∧
      digitValue? 16 (Nat.digitChar digit).toUpper = some digit.val := by decide
  have hsixteen : digitValue? 16 c = some digit := by
    obtain ⟨hlower, hupper⟩ := hread ⟨digit, by omega⟩
    rcases hc with rfl | rfl
    · exact hlower
    · exact hupper
  rw [digitValue?, Option.filter_eq_some_iff] at hsixteen ⊢
  exact ⟨hsixteen.1, decide_eq_true hlt⟩

/-- Digits within the limit are read as the number that they continue. -/
theorem readDigits_eq {base limit value : Nat} {digits : List Char} {values : List Nat}
    (hbase : base ≤ 16) (h : List.Forall₂ (DigitOf base) digits values)
    (hlimit : continued base value values ≤ limit) :
    readDigits base limit value digits = some (continued base value values) := by
  induction h generalizing value with
  | nil => rfl
  | @cons c digit digits values hdigit _ ih =>
      have hnext : value * base + digit ≤ limit :=
        (le_continued (Nat.zero_lt_of_lt hdigit.1) _ values).trans hlimit
      simp only [readDigits, hdigit.digitValue?_eq hbase, if_pos hnext]
      exact ih hlimit

/-- A numeral within the limit is read as its value. -/
theorem Numeral.readNumeral_eq {base limit value : Nat} {digits : List Char}
    (h : Numeral base value digits) (hbase : base ≤ 16) (hlimit : value ≤ limit) :
    readNumeral base limit digits = some value := by
  obtain ⟨values, hdigits, hne, hvalue⟩ := h
  have hnonempty : ¬ digits.isEmpty := by
    rw [List.isEmpty_iff]
    rintro rfl
    cases hdigits
    exact hne rfl
  rw [ofDigits_reverse] at hvalue
  subst hvalue
  rw [readNumeral, if_neg hnonempty]
  exact readDigits_eq hbase hdigits hlimit

end Text

namespace Listing

open Text (DigitOf Numeral)

/-! ## Written tokens -/

/-- A text and how it may stand between quotation marks: a quotation mark or a backslash follows a
backslash, and any other character may. -/
inductive Quotes : List Char → List Char → Prop
  | nil : Quotes [] []
  | plain {c : Char} {content written : List Char} (hquote : c ≠ '"') (hbackslash : c ≠ '\\')
      (hnewline : c ≠ '\n') (h : Quotes content written) : Quotes (c :: content) (c :: written)
  | escaped {c : Char} {content written : List Char} (hnewline : c ≠ '\n')
      (h : Quotes content written) : Quotes (c :: content) ('\\' :: c :: written)

/-- How a token other than a line feed may be written. -/
inductive Spells : TokenKind → List Char → Prop
  | equals : Spells .equals ['=']
  | id (name : List Char) (hne : name ≠ []) (hname : ∀ c ∈ name, isWordChar c = true) :
      Spells (.id (String.ofList name)) ('%' :: name)
  | word (first : Char) (others : List Char) (hfirst : first.isAlpha = true ∨ first = '_')
      (hothers : ∀ c ∈ others, isWordChar c = true) :
      Spells (.word (String.ofList (first :: others))) (first :: others)
  | decimal {value : UInt32} {digits : List Char} (h : Numeral 10 value.toNat digits) :
      Spells (.integer value) digits
  | hexadecimal {value : UInt32} {x : Char} {digits : List Char} (hx : x = 'x' ∨ x = 'X')
      (h : Numeral 16 value.toNat digits) : Spells (.integer value) ('0' :: x :: digits)
  | string {content written : List Char} (h : Quotes content written) :
      Spells (.string (String.ofList content)) ('"' :: (written ++ ['"']))

/-- Some blanks, possibly none. -/
def Blanks (text : List Char) : Prop := ∀ c ∈ text, isInlineBlank c = true

/-- A comment or nothing. -/
def Remark (text : List Char) : Prop :=
  text = [] ∨ ∃ content, '\n' ∉ content ∧ (text = ';' :: content ∨ text = '/' :: '/' :: content)

/-- Whether a text that writes some tokens may stand behind another token: there are none, or a line
feed comes first, or the text begins with a blank. -/
def Detached (kinds : List TokenKind) (text : List Char) : Prop :=
  kinds = [] ∨ kinds.head? = some .newline ∨ ∃ c ∈ text.head?, isInlineBlank c = true

/-- The texts that write some tokens. Blanks may stand before each token and at the end, and at
least one stands between two tokens that are not line feeds; a comment may stand before a line feed
and at the end. -/
inductive Writes : List TokenKind → List Char → Prop
  | stop (blanks remark : List Char) (hblanks : Blanks blanks) (hremark : Remark remark) :
      Writes [] (blanks ++ remark)
  | newline (blanks remark : List Char) {rest : List Char} {kinds : List TokenKind}
      (hblanks : Blanks blanks) (hremark : Remark remark) (h : Writes kinds rest) :
      Writes (.newline :: kinds) (blanks ++ (remark ++ '\n' :: rest))
  | token (blanks : List Char) {lexeme rest : List Char} {kind : TokenKind}
      {kinds : List TokenKind} (hblanks : Blanks blanks) (hspells : Spells kind lexeme)
      (hdetached : Detached kinds rest) (h : Writes kinds rest) :
      Writes (kind :: kinds) (blanks ++ (lexeme ++ rest))

/-! ## What stands before a token -/

/-- Passing over the blanks and the comment before a token. -/
theorem blankLength_append {blanks body : List Char} (hblanks : Blanks blanks)
    (hbody : ∀ c ∈ body.head?, isInlineBlank c = false) :
    blankLength (blanks ++ body) = blanks.length + commentLength body := by
  rw [blankLength, Text.takeWhile_append_of_kind hblanks hbody,
    Text.dropWhile_append_of_kind hblanks hbody]

/-- A comment goes up to the end of its line. -/
theorem Remark.commentLength_append {remark rest : List Char} (h : Remark remark)
    (hrest : rest = [] ∨ ∃ others, rest = '\n' :: others) :
    commentLength (remark ++ rest) = remark.length := by
  have htake {content : List Char} (hcontent : '\n' ∉ content) :
      (content ++ rest).takeWhile (· ≠ '\n') = content := by
    refine Text.takeWhile_append_of_kind
      (fun c hc => decide_eq_true (ne_of_mem_of_not_mem hc hcontent)) ?_
    rcases hrest with rfl | ⟨others, rfl⟩ <;> simp
  rcases h with rfl | ⟨content, hcontent, rfl | rfl⟩
  · rcases hrest with rfl | ⟨others, rfl⟩ <;> rfl
  · show ((';' :: (content ++ rest)).takeWhile (· ≠ '\n')).length = _
    rw [List.takeWhile_cons_of_pos (by decide), htake hcontent]
  · show (('/' :: '/' :: (content ++ rest)).takeWhile (· ≠ '\n')).length = _
    rw [List.takeWhile_cons_of_pos (by decide), List.takeWhile_cons_of_pos (by decide),
      htake hcontent]

/-- A comment does not begin with a blank. -/
theorem Remark.head_append {remark rest : List Char} (h : Remark remark)
    (hrest : rest = [] ∨ ∃ others, rest = '\n' :: others) :
    ∀ c ∈ (remark ++ rest).head?, isInlineBlank c = false ∧ isWordChar c = false := by
  intro c hc
  rcases h with rfl | ⟨content, -, rfl | rfl⟩
  · rcases hrest with rfl | ⟨others, rfl⟩
    · cases hc
    · cases hc
      decide
  · cases hc
    decide
  · cases hc
    decide

/-- Blanks and a comment are passed over as a whole. -/
theorem drop_blankLength_remark {blanks remark rest : List Char} (hblanks : Blanks blanks)
    (hremark : Remark remark) (hrest : rest = [] ∨ ∃ others, rest = '\n' :: others) :
    (blanks ++ (remark ++ rest)).drop (blankLength (blanks ++ (remark ++ rest))) = rest := by
  rw [blankLength_append hblanks fun c hc => (hremark.head_append hrest c hc).1,
    hremark.commentLength_append hrest, ← List.append_assoc, ← List.length_append]
  exact List.drop_left

/-- A character that begins neither blanks nor a comment. -/
def BeginsToken (c : Char) : Prop := isInlineBlank c = false ∧ c ≠ ';' ∧ c ≠ '/'

theorem beginsToken_of_isWordChar {c : Char} (h : isWordChar c = true) : BeginsToken c := by
  have hother {d : Char} (hd : isWordChar d = false) : c ≠ d := by
    rintro rfl
    rw [hd] at h
    cases h
  refine ⟨?_, hother (by decide), hother (by decide)⟩
  simp only [isInlineBlank, Bool.or_eq_false_iff, decide_eq_false_iff_not]
  exact ⟨⟨hother (by decide), hother (by decide)⟩, hother (by decide)⟩

theorem not_isWordChar_of_isInlineBlank {c : Char} (h : isInlineBlank c = true) :
    isWordChar c = false := by
  by_contra hword
  rw [Bool.not_eq_false] at hword
  rw [(beginsToken_of_isWordChar hword).1] at h
  cases h

/-- Blanks are passed over up to the first character of a token. -/
theorem drop_blankLength_token {blanks : List Char} {c : Char} {rest : List Char}
    (hblanks : Blanks blanks) (hc : BeginsToken c) :
    (blanks ++ c :: rest).drop (blankLength (blanks ++ c :: rest)) = c :: rest := by
  obtain ⟨hblank, hsemicolon, hslash⟩ := hc
  have hcomment : commentLength (c :: rest) = 0 := by
    unfold commentLength
    split
    · next heq => exact absurd (List.cons.inj heq).1 hsemicolon
    · next heq => exact absurd (List.cons.inj heq).1 hslash
    · rfl
  rw [blankLength_append hblanks, hcomment, Nat.add_zero]
  · exact List.drop_left
  · intro d hd
    cases hd
    exact hblank

/-! ## Reading a written token -/

/-- A text that is empty or begins with no character of a word ends a word before it. -/
def EndsWord (text : List Char) : Prop := ∀ c ∈ text.head?, isWordChar c = false

/-- A word is read up to its end. -/
theorem takeWhile_isWordChar {word rest : List Char} (hword : ∀ c ∈ word, isWordChar c = true)
    (hrest : EndsWord rest) : (word ++ rest).takeWhile isWordChar = word :=
  Text.takeWhile_append_of_kind hword hrest

/-- A quoted text is read up to its closing quotation mark. -/
theorem Quotes.scanString_eq {content written : List Char} (h : Quotes content written)
    (before : List Char) (length : Nat) (rest : List Char) :
    scanString before length (written ++ '"' :: rest) =
      (.string (String.ofList (before.reverse ++ content)), length + written.length + 1) := by
  induction h generalizing before length with
  | nil => simp [scanString]
  | @plain c content written hquote hbackslash hnewline _ ih =>
      rw [List.cons_append, scanString, ih]
      · simp
        omega
      all_goals simp_all
  | @escaped c content written hnewline _ ih =>
      rw [List.cons_append, List.cons_append, scanString, ih]
      · simp
        omega
      all_goals simp_all

/-- The digits of a numeral are characters of a word. -/
theorem isWordChar_of_digitOf {base digit : Nat} {c : Char} (h : DigitOf base c digit)
    (hbase : base ≤ 16) : isWordChar c = true := by
  obtain ⟨hlt, hc⟩ := h
  have hword : ∀ digit : Fin 16, isWordChar (Nat.digitChar digit) = true ∧
      isWordChar (Nat.digitChar digit).toUpper = true := by decide
  obtain ⟨hlower, hupper⟩ := hword ⟨digit, by omega⟩
  rcases hc with rfl | rfl
  · exact hlower
  · exact hupper

theorem isDigit_of_digitOf {digit : Nat} {c : Char} (h : DigitOf 10 c digit) :
    c.isDigit = true := by
  obtain ⟨hlt, hc⟩ := h
  have hdigit : ∀ digit : Fin 10, (Nat.digitChar digit).isDigit = true ∧
      (Nat.digitChar digit).toUpper.isDigit = true := by decide
  obtain ⟨hlower, hupper⟩ := hdigit ⟨digit, hlt⟩
  rcases hc with rfl | rfl
  · exact hlower
  · exact hupper

/-- What holds of every digit of a base holds of every character of a numeral. -/
theorem forall_mem_of_digits {base : Nat} {digits : List Char} {values : List Nat}
    {p : Char → Prop} (h : List.Forall₂ (DigitOf base) digits values)
    (hp : ∀ c digit, DigitOf base c digit → p c) : ∀ c ∈ digits, p c := by
  induction h with
  | nil => nofun
  | cons hdigit _ ih =>
      rw [List.forall_mem_cons]
      exact ⟨hp _ _ hdigit, ih⟩

/-- A numeral of a word is read as the word. -/
theorem integerOf_eq {base : Nat} {value : UInt32} {digits : List Char}
    (h : Numeral base value.toNat digits) (hbase : base ≤ 16) :
    integerOf base digits = .integer value := by
  have hlimit : value.toNat ≤ 4294967295 := Nat.le_of_lt_succ value.toNat_lt
  simp only [integerOf, h.readNumeral_eq hbase hlimit, UInt32.ofNat_toNat]

/-- A digit begins a decimal numeral, unless it is a zero before the letter `x`. -/
theorem scan_of_isDigit {c : Char} {rest : List Char} (hc : c.isDigit = true)
    (hrest : ∀ x ∈ rest.head?, x ≠ 'x' ∧ x ≠ 'X') :
    scan c rest = (integerOf 10 (c :: rest.takeWhile isWordChar),
      (rest.takeWhile isWordChar).length) := by
  have hother {d : Char} (hd : d.isDigit = false) : c ≠ d := by
    rintro rfl
    rw [hd] at hc
    cases hc
  rw [scan, if_neg (hother (by decide)), if_neg (hother (by decide)),
    if_neg (hother (by decide)), if_neg (hother (by decide)), if_pos hc]
  · rintro after - rfl
    exact (hrest 'x' rfl).1 rfl
  · rintro after - rfl
    exact (hrest 'X' rfl).2 rfl

/-- Letters come behind the digits. -/
theorem not_isDigit_of_isAlpha {c : Char} (h : c.isAlpha = true) : c.isDigit = false := by
  have hletter : 'A'.toNat ≤ c.toNat := by
    rcases Bool.or_eq_true_iff.1 (show (c.isUpper || c.isLower) = true from h) with hupper | hlower
    · have hbounds : 'A'.val ≤ c.val ∧ c.val ≤ 'Z'.val := of_decide_eq_true hupper
      exact UInt32.le_iff_toNat_le.1 hbounds.1
    · have hbounds : (decide ('a'.val ≤ c.val) && decide (c.val ≤ 'z'.val)) = true := hlower
      have hlower : 'a'.val ≤ c.val := of_decide_eq_true (Bool.and_eq_true_iff.1 hbounds).1
      exact Nat.le_trans (by decide) (UInt32.le_iff_toNat_le.1 hlower)
  rw [Bool.eq_false_iff]
  intro hdigit
  have hlast : c.toNat ≤ '9'.toNat := (Char.isDigit_iff_toNat.1 hdigit).2
  exact absurd (Nat.le_trans hletter hlast) (by decide)

/-- A letter or a low line begins a word. -/
theorem scan_of_isAlpha {c : Char} (rest : List Char) (hc : c.isAlpha = true ∨ c = '_') :
    scan c rest = (.word (String.ofList (c :: rest.takeWhile isWordChar)),
      (rest.takeWhile isWordChar).length) := by
  have hother {d : Char} (hd : d.isAlpha = false ∧ d ≠ '_') : c ≠ d := by
    rintro rfl
    rcases hc with hc | hc
    · rw [hd.1] at hc
      cases hc
    · exact hd.2 hc
  have hdigit : ¬ c.isDigit = true := by
    rcases hc with hc | rfl
    · rw [not_isDigit_of_isAlpha hc]
      exact Bool.false_ne_true
    · decide
  rw [scan, if_neg (hother (by decide)), if_neg (hother (by decide)),
    if_neg (hother (by decide)), if_neg (hother (by decide)), if_neg hdigit,
    if_pos (by simpa using hc)]
  · rintro after rfl
    exact absurd rfl hdigit
  · rintro after rfl
    exact absurd rfl hdigit

/-- A written token before the end of a word is read as the token. -/
theorem scan_of_spells {kind : TokenKind} {lexeme rest : List Char} (h : Spells kind lexeme)
    (hrest : EndsWord rest) :
    ∃ c others, lexeme = c :: others ∧ BeginsToken c ∧
      scan c (others ++ rest) = (kind, others.length) := by
  cases h with
  | equals => exact ⟨'=', [], rfl, by unfold BeginsToken; decide, rfl⟩
  | id name hne hname =>
      refine ⟨'%', name, rfl, by unfold BeginsToken; decide, ?_⟩
      show (if ((name ++ rest).takeWhile isWordChar).isEmpty then _ else _) = _
      rw [takeWhile_isWordChar hname hrest, if_neg (by simpa using hne)]
  | word first others hfirst hothers =>
      have hword : isWordChar first = true := by
        rcases hfirst with hfirst | rfl
        · simp [isWordChar, Char.isAlphanum, hfirst]
        · decide
      refine ⟨first, others, rfl, beginsToken_of_isWordChar hword, ?_⟩
      rw [scan_of_isAlpha _ hfirst, takeWhile_isWordChar hothers hrest]
  | @decimal value digits h =>
      obtain ⟨values, hdigits, hne, hvalue⟩ := h
      cases hdigits with
      | nil => exact absurd rfl hne
      | @cons c digit others digits hc hothers =>
          have hword := forall_mem_of_digits hothers fun _ _ h =>
            isWordChar_of_digitOf h (by decide)
          refine ⟨c, others, rfl,
            beginsToken_of_isWordChar (isWordChar_of_digitOf hc (by decide)), ?_⟩
          have hx : ∀ x ∈ (others ++ rest).head?, x ≠ 'x' ∧ x ≠ 'X' := by
            intro x hx
            have hdigit : x.isDigit = true ∨ isWordChar x = false := by
              cases hothers with
              | nil => exact Or.inr (hrest x hx)
              | cons hx' _ =>
                  cases hx
                  exact Or.inl (isDigit_of_digitOf hx')
            constructor
            · rintro rfl
              revert hdigit
              decide
            · rintro rfl
              revert hdigit
              decide
          rw [scan_of_isDigit (isDigit_of_digitOf hc) hx, takeWhile_isWordChar hword hrest,
            integerOf_eq ⟨_, .cons hc hothers, hne, hvalue⟩ (by decide)]
  | @hexadecimal value x digits hx h =>
      refine ⟨'0', x :: digits, rfl, by unfold BeginsToken; decide, ?_⟩
      obtain ⟨values, hdigits, -⟩ := id h
      have hword := forall_mem_of_digits hdigits fun _ _ h => isWordChar_of_digitOf h (by decide)
      have hscan : scan '0' (x :: (digits ++ rest)) =
          (integerOf 16 ((digits ++ rest).takeWhile isWordChar),
            ((digits ++ rest).takeWhile isWordChar).length + 1) := by
        rcases hx with rfl | rfl <;> rfl
      rw [List.cons_append, hscan, takeWhile_isWordChar hword hrest, integerOf_eq h (by decide),
        List.length_cons]
  | @string content written h =>
      refine ⟨'"', written ++ ['"'], rfl, by unfold BeginsToken; decide, ?_⟩
      show scanString [] 0 (written ++ ['"'] ++ rest) = _
      rw [List.append_assoc, List.singleton_append, h.scanString_eq]
      simp

/-! ## Reading written tokens -/

/-- Blanks before what ends a word end the word too. -/
theorem EndsWord.append {blanks body : List Char} (h : EndsWord body) (hblanks : Blanks blanks) :
    EndsWord (blanks ++ body) := by
  cases blanks with
  | nil => exact h
  | cons blank rest =>
      intro c hc
      cases hc
      exact not_isWordChar_of_isInlineBlank (hblanks blank List.mem_cons_self)

/-- A word ends where no token follows, where a line feed follows, and at a blank. -/
theorem Writes.endsWord {kinds : List TokenKind} {text : List Char} (h : Writes kinds text)
    (hdetached : Detached kinds text) : EndsWord text := by
  cases h with
  | stop blanks remark hblanks hremark =>
      refine EndsWord.append (fun c hc => ?_) hblanks
      exact (hremark.head_append (Or.inl rfl) c (by rwa [List.append_nil])).2
  | newline blanks remark hblanks hremark _ =>
      refine EndsWord.append (fun c hc => ?_) hblanks
      exact (hremark.head_append (Or.inr ⟨_, rfl⟩) c hc).2
  | token blanks _ hspells _ _ =>
      rcases hdetached with hnil | hnewline | ⟨c, hc, hblank⟩
      · cases hnil
      · cases hnewline
        cases hspells
      · intro d hd
        cases Option.mem_unique hc hd
        exact not_isWordChar_of_isInlineBlank hblank

/-- The tokens of a text that writes some tokens are these. -/
theorem kindsFrom_of_writes {kinds : List TokenKind} {text : List Char} (h : Writes kinds text) :
    kindsFrom text = kinds := by
  induction h with
  | stop blanks remark hblanks hremark =>
      refine kindsFrom_of_drop_eq_nil ?_
      simpa only [List.append_nil] using drop_blankLength_remark hblanks hremark (Or.inl rfl)
  | newline blanks remark hblanks hremark _ ih =>
      rw [kindsFrom_of_drop_eq_cons
        (drop_blankLength_remark hblanks hremark (Or.inr ⟨_, rfl⟩))]
      exact congrArg (TokenKind.newline :: ·) ih
  | @token blanks lexeme rest kind kinds hblanks hspells hdetached hrest ih =>
      obtain ⟨c, others, rfl, hc, hscan⟩ := scan_of_spells hspells (hrest.endsWord hdetached)
      rw [List.cons_append, kindsFrom_of_drop_eq_cons (drop_blankLength_token hblanks hc), hscan]
      show kind :: kindsFrom ((others ++ rest).drop others.length) = kind :: kinds
      rw [List.drop_left, ih]

/-- Reading a text that writes some tokens, in whatever way, gives these tokens and then the mark of
the end. -/
theorem tokens_of_writes {kinds : List TokenKind} {text : String}
    (h : Writes kinds text.toList) : (tokens text).map (·.kind) = kinds ++ [.stop] := by
  rw [map_kind_tokens, kinds_eq, kindsFrom_of_writes h]

/-- A line that names a value, with escapes, numbers in both bases and a comment. -/
def nameLine : String := "%x.1 =\tOpName \"a\\\"\\é\" 0X0fF  007// é\n ;"

/-- The tokens of that line. -/
def nameLineKinds : List TokenKind :=
  [.id "x.1", .equals, .word "OpName", .string "a\"é", .integer 255, .integer 7, .newline]

/-- Reading the line that writes these tokens gives them back. -/
theorem tokens_of_writes_nameLine : Writes nameLineKinds nameLine.toList ∧
    (tokens nameLine).map (·.kind) = nameLineKinds ++ [.stop] := by
  have hblank : Blanks [' '] := List.all_eq_true.1 rfl
  have hblanks : Blanks [' ', ' '] := List.all_eq_true.1 rfl
  have htabs : Blanks ['\t'] := List.all_eq_true.1 rfl
  have hname : ∀ c ∈ ['x', '.', '1'], isWordChar c = true := List.all_eq_true.1 rfl
  have hword : ∀ c ∈ ['p', 'N', 'a', 'm', 'e'], isWordChar c = true := List.all_eq_true.1 rfl
  have hcontent : Quotes ['a', '"', 'é'] ['a', '\\', '"', '\\', 'é'] :=
    .plain nofun nofun nofun (.escaped nofun (.escaped nofun .nil))
  have hmask : Numeral 16 (255 : UInt32).toNat ['0', 'f', 'F'] := by
    refine ⟨[0, 15, 15], .cons ?_ (.cons ?_ (.cons ?_ .nil)), nofun, by decide⟩
    all_goals
      unfold DigitOf
      decide
  have hindex : Numeral 10 (7 : UInt32).toNat ['0', '0', '7'] := by
    refine ⟨[0, 0, 7], .cons ?_ (.cons ?_ (.cons ?_ .nil)), nofun, by decide⟩
    all_goals
      unfold DigitOf
      decide
  have hspace {kinds : List TokenKind} {rest : List Char} : Detached kinds (' ' :: rest) :=
    Or.inr (Or.inr ⟨' ', rfl, rfl⟩)
  have htab {kinds : List TokenKind} {rest : List Char} : Detached kinds ('\t' :: rest) :=
    Or.inr (Or.inr ⟨'\t', rfl, rfl⟩)
  have hwrites : Writes nameLineKinds nameLine.toList := by
    refine .token [] nofun (.id ['x', '.', '1'] nofun hname) hspace ?_
    refine .token [' '] hblank .equals htab ?_
    refine .token ['\t'] htabs (.word 'O' ['p', 'N', 'a', 'm', 'e'] (Or.inl rfl) hword) hspace ?_
    refine .token [' '] hblank (.string hcontent) hspace ?_
    refine .token [' '] hblank (.hexadecimal (Or.inr rfl) hmask) hspace ?_
    refine .token [' ', ' '] hblanks (.decimal hindex) (Or.inr (Or.inl rfl)) ?_
    refine .newline [] ['/', '/', ' ', 'é'] nofun ?_ (.stop [' '] [';'] hblank ?_)
    · exact Or.inr ⟨[' ', 'é'], by decide, Or.inr rfl⟩
    · exact Or.inr ⟨[], by decide, Or.inl rfl⟩
  exact ⟨hwrites, tokens_of_writes hwrites⟩

end Listing

end SpirvLegality
