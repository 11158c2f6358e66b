import Mathlib.Data.List.TakeWhile
import SpirvLegality.Listing.Scanner
import SpirvLegality.Proofs.Cutting

/-!
# Characters and their bytes

A character is one byte if it is an ASCII character, and otherwise several bytes none of which is
the byte of an ASCII character (`exists_bytes`). So a test that treats all other characters alike
can be made on bytes (`takeWhile_utf8`, `dropWhile_utf8`), and passing over the bytes of a text is
passing over its characters (`Position.advanceBytes_utf8`).
-/

namespace SpirvLegality.Listing

/-- The bytes of some characters. -/
def utf8 (text : List Char) : List UInt8 := text.flatMap String.utf8EncodeChar

theorem sourceBytes_eq (text : String) : sourceBytes text = utf8 text.toList := by
  conv => lhs; rw [← String.ofList_toList (s := text)]
  rw [sourceBytes, String.toByteArray_ofList, List.utf8Encode, List.data_toByteArray]
  rfl

theorem length_sourceBytes (text : String) : (sourceBytes text).length = text.utf8ByteSize := by
  rw [sourceBytes, Array.length_toList]
  rfl

theorem utf8_cons (c : Char) (text : List Char) :
    utf8 (c :: text) = String.utf8EncodeChar c ++ utf8 text :=
  List.flatMap_cons

theorem utf8_append (text others : List Char) : utf8 (text ++ others) = utf8 text ++ utf8 others :=
  List.flatMap_append

/-- The bytes of a text are UTF-8. -/
theorem fromUTF8?_utf8 (text : List Char) :
    String.fromUTF8? (utf8 text).toByteArray = some (String.ofList text) := by
  have hvalid : (utf8 text).toByteArray.IsValidUTF8 := ByteArray.isValidUTF8_utf8Encode
  rw [String.fromUTF8?, dif_pos hvalid]
  rfl

/-! ## The bytes of one character -/

theorem ofUInt8_toUInt8 {c : Char} (h : c.toNat < 128) : Char.ofUInt8 c.toUInt8 = c := by
  have hmod : c.toNat % 2 ^ 8 = c.toNat := Nat.mod_eq_of_lt (Nat.lt_trans h (by decide))
  refine Char.ext (UInt32.toNat_inj.1 ?_)
  show c.val.toUInt8.toUInt32.toNat = c.val.toNat
  rw [UInt8.toNat_toUInt32, UInt32.toNat_toUInt8]
  exact hmod

theorem toNat_ofUInt8 (b : UInt8) : (Char.ofUInt8 b).toNat = b.toNat :=
  UInt8.toNat_toUInt32 b

/-- A byte has the number of an ASCII character if it is the byte of this character. -/
theorem ofUInt8_eq_iff {b : UInt8} {d : Char} (hd : d.toNat < 128) :
    Char.ofUInt8 b = d ↔ b = d.toUInt8 := by
  constructor
  · intro h
    rw [← h]
    exact (UInt8.toUInt8_toUInt32 b).symm
  · intro h
    rw [h, ofUInt8_toUInt8 hd]

theorem utf8EncodeChar_of_lt {c : Char} (h : c.toNat < 128) :
    String.utf8EncodeChar c = [c.toUInt8] := by
  have hle : c.val ≤ 127 := UInt32.le_iff_toNat_le.2 (Nat.le_of_lt_succ h)
  exact String.utf8EncodeChar_eq_singleton (Char.utf8Size_eq_one_iff.2 hle)

/-- The bytes of a character outside ASCII are no bytes of ASCII characters. -/
theorem le_of_mem_utf8EncodeChar {c : Char} (h : 128 ≤ c.toNat) {b : UInt8}
    (hb : b ∈ String.utf8EncodeChar c) : 128 ≤ b.toNat := by
  have hofNat {n : Nat} (hle : 128 ≤ n) (hlt : n < 256) : 128 ≤ (UInt8.ofNat n).toNat := by
    rwa [UInt8.toNat_ofNat_of_lt' hlt]
  have hnot : ¬ c.val.toNat ≤ 127 := Nat.not_le.2 h
  rw [String.utf8EncodeChar, if_neg hnot] at hb
  split at hb
  · simp only [List.mem_cons, List.not_mem_nil, or_false] at hb
    rcases hb with rfl | rfl <;> exact hofNat (by omega) (by omega)
  · split at hb
    · simp only [List.mem_cons, List.not_mem_nil, or_false] at hb
      rcases hb with rfl | rfl | rfl <;> exact hofNat (by omega) (by omega)
    · simp only [List.mem_cons, List.not_mem_nil, or_false] at hb
      rcases hb with rfl | rfl | rfl | rfl <;> exact hofNat (by omega) (by omega)

/-- A byte that goes on with a character begins none. -/
def Continues (b : UInt8) : Prop := 128 ≤ b.toNat ∧ ¬ b.IsUTF8FirstByte

/-- The bytes behind the first one of a character go on with it. -/
theorem continues_of_mem_tail {c : Char} {b : UInt8} {tail : List UInt8}
    (hbytes : String.utf8EncodeChar c = b :: tail) {x : UInt8} (hx : x ∈ tail) : Continues x := by
  obtain ⟨i, hi, rfl⟩ := List.getElem_of_mem hx
  have hbyte : [c].utf8Encode.data.toList = b :: tail := by
    rw [List.utf8Encode_singleton, List.data_toByteArray, hbytes]
  constructor
  · rcases Nat.lt_or_ge c.toNat 128 with hlt | hle
    · rw [utf8EncodeChar_of_lt hlt, List.cons.injEq] at hbytes
      rw [← hbytes.2] at hi
      exact absurd hi (Nat.not_lt_zero i)
    · exact le_of_mem_utf8EncodeChar hle (hbytes ▸ List.mem_cons_of_mem b hx)
  · intro hfirst
    have hsize : i + 1 < [c].utf8Encode.size := by
      rw [← ByteArray.size_data, ← Array.length_toList, hbyte]
      exact Nat.succ_lt_succ hi
    have hget : [c].utf8Encode[i + 1] = tail[i] := by
      simp only [ByteArray.getElem_eq_getElem_data, ← Array.getElem_toList, hbyte,
        List.getElem_cons_succ]
    exact Nat.succ_ne_zero i (List.isUTF8FirstByte_getElem_utf8Encode_singleton.1
      (hget ▸ hfirst))

/-- The first byte of a character is that of an ASCII character only if the character is this
one. -/
theorem eq_toUInt8_iff {c : Char} {b : UInt8} {tail : List UInt8}
    (hbytes : String.utf8EncodeChar c = b :: tail) {d : Char} (hd : d.toNat < 128) :
    b = d.toUInt8 ↔ c = d := by
  rcases Nat.lt_or_ge c.toNat 128 with hlt | hle
  · rw [utf8EncodeChar_of_lt hlt, List.cons.injEq] at hbytes
    rw [← hbytes.1]
    constructor
    · intro h
      rw [← ofUInt8_toUInt8 hlt, h, ofUInt8_toUInt8 hd]
    · intro h
      rw [h]
  · have hb := le_of_mem_utf8EncodeChar hle (hbytes ▸ List.mem_cons_self)
    constructor
    · intro h
      have hnat := congrArg Char.toNat ((ofUInt8_eq_iff hd).2 h)
      rw [toNat_ofUInt8] at hnat
      omega
    · intro h
      rw [h] at hle
      omega

/-- A character is a first byte and bytes that go on with it. The first byte is that of an ASCII
character only if the character is this one. -/
theorem exists_bytes (c : Char) :
    ∃ b tail, String.utf8EncodeChar c = b :: tail ∧ (∀ x ∈ tail, Continues x) ∧
      ∀ d : Char, d.toNat < 128 → (b = d.toUInt8 ↔ c = d) := by
  have hpos := c.utf8Size_pos
  cases hbytes : String.utf8EncodeChar c with
  | nil =>
      rw [← String.length_utf8EncodeChar, hbytes, List.length_nil] at hpos
      exact absurd hpos (Nat.lt_irrefl 0)
  | cons b tail =>
      exact ⟨b, tail, rfl, fun x => continues_of_mem_tail hbytes, fun d => eq_toUInt8_iff hbytes⟩

/-- The byte of an ASCII character stands where the character stands. -/
theorem toUInt8_mem_utf8_iff {d : Char} (hd : d.toNat < 128) {text : List Char} :
    d.toUInt8 ∈ utf8 text ↔ d ∈ text := by
  rw [utf8, List.mem_flatMap]
  constructor
  · intro h
    obtain ⟨c, hc, hbyte⟩ := h
    obtain ⟨b, tail, hbytes, htail, hfirst⟩ := exists_bytes c
    rw [hbytes, List.mem_cons] at hbyte
    rcases hbyte with hb | hrest
    · rwa [← (hfirst d hd).1 hb.symm]
    · have hle := (htail _ hrest).1
      rw [← toNat_ofUInt8, ofUInt8_toUInt8 hd] at hle
      omega
  · intro h
    exact ⟨d, h, by rw [utf8EncodeChar_of_lt hd]; exact List.mem_singleton_self _⟩

/-! ## Tests on bytes -/

/-- A test on bytes that is a test on the characters that they belong to. -/
def TestsChars (test : UInt8 → Bool) (ofChar : Char → Bool) : Prop :=
  ∀ c, ∀ b ∈ String.utf8EncodeChar c, test b = ofChar c

/-- A test on the characters with the numbers of the bytes, if it treats all characters outside
ASCII alike. -/
theorem testsChars_ofUInt8 {ofChar : Char → Bool} (other : Bool)
    (h : ∀ c, 128 ≤ c.toNat → ofChar c = other) :
    TestsChars (fun b => ofChar (Char.ofUInt8 b)) ofChar := by
  intro c b hb
  show ofChar (Char.ofUInt8 b) = ofChar c
  rcases Nat.lt_or_ge c.toNat 128 with hlt | hle
  · rw [utf8EncodeChar_of_lt hlt, List.mem_singleton] at hb
    rw [hb, ofUInt8_toUInt8 hlt]
  · rw [h c hle, h (Char.ofUInt8 b) (toNat_ofUInt8 b ▸ le_of_mem_utf8EncodeChar hle hb)]

/-- A character of a word is an ASCII character. -/
theorem lt_of_isWordChar {c : Char} (h : isWordChar c = true) : c.toNat < 128 := by
  have halpha : c.isAlpha = (c.isUpper || c.isLower) := rfl
  have hupper : c.isUpper = decide (c.val ≥ 'A'.val ∧ c.val ≤ 'Z'.val) := rfl
  have hlower : c.isLower = (decide (c.val ≥ 'a'.val) && decide (c.val ≤ 'z'.val)) := rfl
  simp only [isWordChar, Char.isAlphanum, halpha, hupper, hlower, Char.isDigit, Bool.or_eq_true,
    Bool.and_eq_true, decide_eq_true_eq, UInt32.le_iff_toNat_le, ge_iff_le] at h
  have hval : c.toNat = c.val.toNat := rfl
  rcases h with (h | rfl) | rfl
  · have hZ : 'Z'.val.toNat = 90 := rfl
    have hz : 'z'.val.toNat = 122 := rfl
    have h9 : '9'.val.toNat = 57 := rfl
    omega
  · decide
  · decide

theorem testsChars_isWordByte : TestsChars isWordByte isWordChar :=
  testsChars_ofUInt8 false fun _ hc => Bool.eq_false_iff.2 fun h =>
    absurd (lt_of_isWordChar h) (Nat.not_lt.2 hc)

/-- A character outside ASCII is none that is. -/
theorem ne_of_le {c d : Char} (hc : 128 ≤ c.toNat) (hd : d.toNat < 128) : c ≠ d := by
  rintro rfl
  exact absurd hd (Nat.not_lt.2 hc)

theorem testsChars_isBlankByte : TestsChars isBlankByte isInlineBlank := by
  refine testsChars_ofUInt8 false fun c hc => ?_
  simp [isInlineBlank, ne_of_le hc (show ' '.toNat < 128 by decide),
    ne_of_le hc (show '\t'.toNat < 128 by decide), ne_of_le hc (show '\r'.toNat < 128 by decide)]

theorem testsChars_isLineByte : TestsChars isLineByte (· ≠ '\n') := by
  have hline : isLineByte = fun b => decide (Char.ofUInt8 b ≠ '\n') := by
    funext b
    rw [isLineByte, decide_eq_decide, ne_eq, ne_eq, ofUInt8_eq_iff (by decide)]
  rw [hline]
  exact testsChars_ofUInt8 true fun c hc =>
    decide_eq_true (ne_of_le hc (show '\n'.toNat < 128 by decide))

/-- Taking the bytes that pass a test is taking the characters that do. -/
theorem takeWhile_utf8 {test : UInt8 → Bool} {ofChar : Char → Bool} (h : TestsChars test ofChar)
    (text : List Char) : (utf8 text).takeWhile test = utf8 (text.takeWhile ofChar) := by
  induction text with
  | nil => rfl
  | cons c rest ih =>
      rw [utf8_cons]
      by_cases hc : ofChar c = true
      · rw [List.takeWhile_cons_of_pos hc, utf8_cons,
          List.takeWhile_append_of_pos fun b hb => (h c b hb).trans hc, ih]
      · obtain ⟨b, tail, hbytes, -⟩ := exists_bytes c
        have hb : ¬ test b = true := by
          rw [h c b (hbytes ▸ List.mem_cons_self)]
          exact hc
        rw [List.takeWhile_cons_of_neg hc, hbytes, List.cons_append,
          List.takeWhile_cons_of_neg hb]
        rfl

theorem dropWhile_utf8 {test : UInt8 → Bool} {ofChar : Char → Bool} (h : TestsChars test ofChar)
    (text : List Char) : (utf8 text).dropWhile test = utf8 (text.dropWhile ofChar) := by
  have happend := congrArg utf8 (List.takeWhile_append_dropWhile (p := ofChar) (l := text))
  rw [utf8_append, ← takeWhile_utf8 h] at happend
  exact List.append_cancel_left
    ((List.takeWhile_append_dropWhile (p := test) (l := utf8 text)).trans happend.symm)

/-- ASCII characters are read off their bytes. -/
theorem map_ofUInt8_utf8 {text : List Char} (h : ∀ c ∈ text, c.toNat < 128) :
    (utf8 text).map Char.ofUInt8 = text := by
  induction text with
  | nil => rfl
  | cons c rest ih =>
      rw [List.forall_mem_cons] at h
      rw [utf8_cons, utf8EncodeChar_of_lt h.1, List.map_append, ih h.2, List.map_singleton,
        ofUInt8_toUInt8 h.1, List.singleton_append]

/-- The word with which the bytes of a text begin is the one with which the text begins. -/
theorem leadingWord_utf8 (text : List Char) :
    leadingWord (utf8 text) = text.takeWhile isWordChar := by
  rw [leadingWord, takeWhile_utf8 testsChars_isWordByte]
  exact map_ofUInt8_utf8 fun c hc => lt_of_isWordChar (List.mem_takeWhile_imp hc)

/-! ## Places behind bytes -/

namespace Position

theorem offset_advanceBytes (p : Position) (bytes : List UInt8) :
    (p.advanceBytes bytes).offset = p.offset + bytes.length := by
  induction bytes generalizing p with
  | nil => rfl
  | cons b rest ih =>
      show ((p.nextByte b).advanceBytes rest).offset = _
      rw [ih, List.length_cons]
      show p.offset + 1 + rest.length = p.offset + (rest.length + 1)
      omega

/-- Passing over bytes counts the line feeds among them. -/
theorem line_advanceBytes (p : Position) (bytes : List UInt8) :
    (p.advanceBytes bytes).line = p.line + bytes.count '\n'.toUInt8 := by
  induction bytes generalizing p with
  | nil => rfl
  | cons b rest ih =>
      show ((p.nextByte b).advanceBytes rest).line = _
      rw [ih, nextByte, List.count_cons]
      by_cases h : b = '\n'.toUInt8
      · simp only [h, if_true, beq_self_eq_true]
        omega
      · simp only [h, if_false, beq_iff_eq]
        omega

theorem advanceBytes_append (p : Position) (bytes others : List UInt8) :
    p.advanceBytes (bytes ++ others) = (p.advanceBytes bytes).advanceBytes others :=
  List.foldl_append

/-- Passing over the bytes of a character is passing over the character. -/
theorem advanceBytes_utf8EncodeChar (p : Position) (c : Char) :
    p.advanceBytes (String.utf8EncodeChar c) = p.next c := by
  have hoffset : (p.advanceBytes (String.utf8EncodeChar c)).offset = p.offset + c.utf8Size := by
    rw [offset_advanceBytes, String.length_utf8EncodeChar]
  have hline : (p.advanceBytes (String.utf8EncodeChar c)).line =
      if c = '\n' then p.line + 1 else p.line := by
    rw [line_advanceBytes]
    by_cases h : c = '\n'
    · rw [if_pos h, h]
      rfl
    · have hnot : '\n'.toUInt8 ∉ String.utf8EncodeChar c := by
        intro hmem
        have hmem : '\n'.toUInt8 ∈ utf8 [c] := List.mem_flatMap.2 ⟨c, List.mem_cons_self, hmem⟩
        rw [toUInt8_mem_utf8_iff (by decide), List.mem_singleton] at hmem
        exact h hmem.symm
      rw [if_neg h, List.count_eq_zero_of_not_mem hnot, Nat.add_zero]
  rw [next, ← hoffset, ← hline]

/-- Passing over the bytes of a text is passing over its characters. -/
theorem advanceBytes_utf8 (p : Position) (text : List Char) :
    p.advanceBytes (utf8 text) = p.advance text := by
  induction text generalizing p with
  | nil => rfl
  | cons c rest ih =>
      rw [utf8_cons, advanceBytes_append, advanceBytes_utf8EncodeChar, ih, advance_cons]

/-- The offset behind a text counts its bytes. -/
theorem offset_advance (p : Position) (text : List Char) :
    (p.advance text).offset = p.offset + (utf8 text).length := by
  rw [← advanceBytes_utf8, offset_advanceBytes]

end Position

end SpirvLegality.Listing
