import Mathlib.Data.List.TakeDrop
import SpirvLegality.Version

/-!
# The texts of versions

A version is written as two numbers up to 255 with a point between them, each in decimal digits and
possibly behind a plus sign, and not both of them zero (`Version.WrittenAs`). These texts and no
others are read, and `Version.text` writes what is read back. Since the numbers are bytes of the
word, words are in the order of their pairs of numbers (`Version.atLeast_of_iff`). Together this is
`Version.parse_meaning`.
-/

namespace SpirvLegality

namespace Text

/-! ## Numbers in digits -/

/-- Decimal digits, at least one, of a number up to 255. -/
structure ByteDigits (n : Nat) (digits : List Char) : Prop where
  ne_nil : digits ≠ []
  isDigit : ∀ c ∈ digits, c.isDigit = true
  value_eq : Nat.ofDigitChars 10 digits 0 = n
  le : n ≤ 255

/-- A number up to 255 in writing: its digits, possibly behind a plus sign. -/
def WritesByte (n : Nat) (text : List Char) : Prop :=
  ByteDigits n text ∨ ∃ digits, text = '+' :: digits ∧ ByteDigits n digits

/-- In base ten the digits are those of ASCII. -/
theorem digitValue?_ten (c : Char) :
    digitValue? 10 c = if c.isDigit = true then some (c.toNat - '0'.toNat) else none := by
  have hrange : c.isDigit = true ↔ '0' ≤ c ∧ c ≤ '9' := by simp [Char.isDigit, Char.le_def]
  have hnine : c ≤ '9' → c.toNat ≤ 57 := UInt32.le_iff_toNat_le.1
  unfold digitValue?
  by_cases hdigit : '0' ≤ c ∧ c ≤ '9'
  · rw [if_pos hdigit, if_pos (hrange.2 hdigit)]
    have hlt : c.toNat - '0'.toNat < 10 := by
      have := hnine hdigit.2
      show c.toNat - 48 < 10
      omega
    exact Option.filter_some_pos (decide_eq_true hlt)
  · rw [if_neg hdigit, if_neg (mt hrange.1 hdigit)]
    -- The letters count from ten on.
    have hletter (n : Nat) : Option.filter (fun d => decide (d < 10)) (some (n + 10)) = none :=
      Option.filter_some_neg (by simp)
    split
    · exact hletter _
    · split
      · exact hletter _
      · rfl

/-- Further digits do not make a number smaller. -/
theorem le_ofDigitChars (value : Nat) (digits : List Char) :
    value ≤ Nat.ofDigitChars 10 digits value := by
  induction digits generalizing value with
  | nil => exact Nat.le_of_eq Nat.ofDigitChars_nil.symm
  | cons c rest ih =>
      rw [Nat.ofDigitChars_cons]
      calc value ≤ 10 * value + (c.toNat - '0'.toNat) := by omega
        _ ≤ _ := ih _

/-- Digits are read if the number that they continue stays within the limit. -/
theorem readDigits_ten_eq_some_iff {limit value n : Nat} {digits : List Char}
    (hvalue : value ≤ limit) : readDigits 10 limit value digits = some n ↔
      (∀ c ∈ digits, c.isDigit = true) ∧ Nat.ofDigitChars 10 digits value = n ∧ n ≤ limit := by
  induction digits generalizing value with
  | nil =>
      rw [readDigits, Nat.ofDigitChars_nil, Option.some.injEq]
      constructor
      · rintro rfl
        exact ⟨List.forall_mem_nil _, rfl, hvalue⟩
      · exact fun h => h.2.1
  | cons c rest ih =>
      rw [readDigits, digitValue?_ten, Nat.ofDigitChars_cons, List.forall_mem_cons]
      by_cases hdigit : c.isDigit = true
      · rw [if_pos hdigit, Nat.mul_comm 10 value]
        dsimp only
        by_cases hnext : value * 10 + (c.toNat - '0'.toNat) ≤ limit
        · rw [if_pos hnext, ih hnext, and_iff_right hdigit]
        · rw [if_neg hnext]
          refine iff_of_false (Option.some_ne_none n).symm ?_
          rintro ⟨-, rfl, hlimit⟩
          exact hnext (Nat.le_trans (le_ofDigitChars _ rest) hlimit)
      · rw [if_neg hdigit]
        exact iff_of_false (Option.some_ne_none n).symm fun h => hdigit h.1.1

theorem readNumeral_eq_some_iff {n : Nat} {digits : List Char} :
    readNumeral 10 255 digits = some n ↔ ByteDigits n digits := by
  rw [readNumeral]
  by_cases hempty : digits = []
  · subst hempty
    exact iff_of_false (Option.some_ne_none n).symm fun h => h.ne_nil rfl
  · rw [if_neg (by simpa using hempty), readDigits_ten_eq_some_iff (Nat.zero_le 255)]
    constructor
    · rintro ⟨hdigits, hvalue, hle⟩
      exact ⟨hempty, hdigits, hvalue, hle⟩
    · intro h
      exact ⟨h.isDigit, h.value_eq, h.le⟩

theorem ByteDigits.not_cons_plus {n : Nat} {digits : List Char} : ¬ ByteDigits n ('+' :: digits) :=
  fun h => absurd (h.isDigit '+' List.mem_cons_self) (by decide)

/-- A byte is read from its writing and from nothing else. -/
theorem readByte_eq_some_iff {b : UInt8} {text : List Char} :
    readByte text = some b ↔ WritesByte b.toNat text := by
  have hdigits {digits : List Char} :
      (readNumeral 10 255 digits).map UInt8.ofNat = some b ↔ ByteDigits b.toNat digits := by
    rw [← readNumeral_eq_some_iff, Option.map_eq_some_iff]
    constructor
    · rintro ⟨n, hread, rfl⟩
      rw [hread, UInt8.toNat_ofNat_of_lt' (Nat.lt_succ_of_le (readNumeral_le hread))]
    · intro hread
      exact ⟨b.toNat, hread, UInt8.ofNat_toNat⟩
  unfold readByte WritesByte
  split
  · next digits =>
      rw [hdigits, or_iff_right ByteDigits.not_cons_plus]
      exact ⟨fun h => ⟨digits, rfl, h⟩, fun ⟨_, heq, h⟩ => (List.cons.inj heq).2 ▸ h⟩
  · next hplus =>
      rw [hdigits, or_iff_left]
      rintro ⟨digits, heq, -⟩
      exact hplus digits heq

/-- What writes a byte holds no point. -/
theorem WritesByte.point_not_mem {n : Nat} {text : List Char} (h : WritesByte n text) :
    '.' ∉ text := by
  have hdigits {digits : List Char} (h : ByteDigits n digits) : '.' ∉ digits :=
    fun hmem => absurd (h.isDigit '.' hmem) (by decide)
  rcases h with h | ⟨digits, rfl, h⟩
  · exact hdigits h
  · rw [List.mem_cons, not_or]
    exact ⟨by decide, hdigits h⟩

theorem WritesByte.le {n : Nat} {text : List Char} (h : WritesByte n text) : n ≤ 255 := by
  rcases h with h | ⟨digits, -, h⟩ <;> exact h.le

/-- A byte is written by its own decimal digits. -/
theorem writesByte_toString {n : Nat} (h : n ≤ 255) : WritesByte n (toString n).toList := by
  have hlist : (toString n).toList = Nat.toDigits 10 n := Nat.toList_repr
  rw [hlist]
  refine Or.inl ⟨Nat.toDigits_ne_nil, fun c hc => ?_, ?_, h⟩
  · exact Nat.isDigit_of_mem_toDigits (by decide) (by decide) hc
  · exact Nat.ofDigitChars_ten_toDigits

end Text

namespace Version

open Text (WritesByte)

/-! ## Versions in writing -/

/-- A text writes two numbers up to 255, not both zero, with a point between them. -/
def WrittenAs (major minor : Nat) (text : String) : Prop :=
  ∃ first second, text.toList = first ++ '.' :: second ∧ WritesByte major first ∧
    WritesByte minor second ∧ ¬ (major = 0 ∧ minor = 0)

theorem readParts_eq_some_iff {text : List Char} {major minor : UInt8} :
    readParts text = some (major, minor) ↔
      ∃ first second, text = first ++ '.' :: second ∧ WritesByte major.toNat first ∧
        WritesByte minor.toNat second := by
  simp only [← Text.readByte_eq_some_iff]
  rw [readParts, List.span_eq_takeWhile_dropWhile]
  constructor
  · intro h
    split at h
    · next first second hspan =>
        simp only [Prod.mk.injEq] at hspan
        obtain ⟨a, ha, h⟩ := Option.bind_eq_some_iff.1 h
        obtain ⟨b, hb, h⟩ := Option.bind_eq_some_iff.1 h
        cases h
        refine ⟨first, second, ?_, ha, hb⟩
        rw [← hspan.1, ← hspan.2, List.takeWhile_append_dropWhile]
    · cases h
  · rintro ⟨first, second, rfl, ha, hb⟩
    have hfirst : ∀ c ∈ first, (c != '.') = true := fun c hc => by
      rw [bne_iff_ne]
      rintro rfl
      exact (Text.readByte_eq_some_iff.1 ha).point_not_mem hc
    rw [List.takeWhile_append_of_pos hfirst, List.dropWhile_append_of_pos hfirst]
    simp [ha, hb]

theorem isUnspecified_of_iff {major minor : UInt8} :
    (of major minor).isUnspecified = true ↔ major.toNat = 0 ∧ minor.toNat = 0 := by
  rw [isUnspecified, beq_iff_eq, ← UInt32.toNat_inj, toNat_bits_of]
  show major.toNat * 65536 + minor.toNat * 256 = 0 ↔ _
  omega

/-- A version is read from the texts that write its two numbers. -/
theorem parse_eq_ok_iff {text : String} {v : Version} :
    parse text = .ok v ↔ ∃ major minor : UInt8,
      v = of major minor ∧ WrittenAs major.toNat minor.toNat text := by
  have hwritten (major minor : UInt8) : WrittenAs major.toNat minor.toNat text ↔
      readParts text.toList = some (major, minor) ∧ (of major minor).isUnspecified = false := by
    rw [readParts_eq_some_iff, Bool.eq_false_iff, ne_eq, isUnspecified_of_iff]
    simp only [WrittenAs, ← and_assoc, exists_and_right]
  simp only [hwritten]
  unfold parse
  cases hparts : readParts text.toList with
  | none => simp
  | some parts =>
      obtain ⟨major, minor⟩ := parts
      dsimp only
      by_cases hzero : (of major minor).isUnspecified = true
      · rw [if_pos hzero]
        refine iff_of_false nofun ?_
        rintro ⟨a, b, -, hread, hnonzero⟩
        cases hread
        rw [hzero] at hnonzero
        cases hnonzero
      · rw [if_neg hzero, Except.ok.injEq]
        constructor
        · rintro rfl
          exact ⟨major, minor, rfl, rfl, Bool.eq_false_iff.2 hzero⟩
        · rintro ⟨a, b, rfl, hread, -⟩
          cases hread
          rfl

/-- The two numbers of a version are those that its texts write. -/
theorem WrittenAs.parse_eq {major minor : Nat} {text : String} (h : WrittenAs major minor text) :
    ∃ v, parse text = .ok v ∧ v.major = major ∧ v.minor = minor := by
  obtain ⟨first, second, -, hmajor, hminor, -⟩ := id h
  have hbyte {n : Nat} {part : List Char} (h : WritesByte n part) : (UInt8.ofNat n).toNat = n :=
    UInt8.toNat_ofNat_of_lt' (Nat.lt_succ_of_le h.le)
  refine ⟨of (UInt8.ofNat major) (UInt8.ofNat minor), ?_, ?_, ?_⟩
  · refine parse_eq_ok_iff.2 ⟨_, _, rfl, ?_⟩
    rw [hbyte hmajor, hbyte hminor]
    exact h
  · rw [major_of, hbyte hmajor]
  · rw [minor_of, hbyte hminor]

/-- A version that is not unspecified writes its own two numbers. -/
theorem writtenAs_text {major minor : UInt8} (h : (of major minor).isUnspecified = false) :
    WrittenAs major.toNat minor.toNat (of major minor).text := by
  have hle (b : UInt8) : b.toNat ≤ 255 := Nat.le_of_lt_succ b.toNat_lt
  refine ⟨(toString major.toNat).toList, (toString minor.toNat).toList, ?_,
    Text.writesByte_toString (hle major), Text.writesByte_toString (hle minor), ?_⟩
  · rw [text, h, major_of, minor_of]
    simp
  · rw [← isUnspecified_of_iff, h]
    exact Bool.false_ne_true

/-- Words of versions are in the order of their pairs of numbers. -/
theorem atLeast_of_iff {major minor major' minor' : UInt8} :
    (of major minor).atLeast (of major' minor') = true ↔
      (of major minor).isUnspecified = true ∨ major'.toNat < major.toNat ∨
        major'.toNat = major.toNat ∧ minor'.toNat ≤ minor.toNat := by
  rw [atLeast, Bool.or_eq_true, decide_eq_true_eq, UInt32.le_iff_toNat_le, toNat_bits_of,
    toNat_bits_of]
  have hminor := minor.toNat_lt
  have hminor' := minor'.toNat_lt
  refine or_congr_right ?_
  omega

/-- A text is read as a version exactly where it writes two numbers up to 255, not both zero. Then
these are the numbers of the version, which is not the unspecified one and is read back from its own
text; and one such version reaches another exactly where its numbers are not the smaller ones, first
by the major number and then by the minor one. -/
theorem parse_meaning (text : String) :
    ((∃ v, parse text = .ok v) ↔ ∃ major minor, WrittenAs major minor text) ∧
      ∀ v, parse text = .ok v →
        (∀ major minor, WrittenAs major minor text → v.major = major ∧ v.minor = minor) ∧
          v ≠ .unspecified ∧ parse v.text = .ok v ∧
            ∀ other w, parse other = .ok w →
              (v.atLeast w = true ↔
                w.major < v.major ∨ w.major = v.major ∧ w.minor ≤ v.minor) := by
  refine ⟨⟨?_, ?_⟩, fun v hv => ⟨?_, ?_, ?_, ?_⟩⟩
  · rintro ⟨v, hv⟩
    obtain ⟨major, minor, -, hwritten⟩ := parse_eq_ok_iff.1 hv
    exact ⟨_, _, hwritten⟩
  · rintro ⟨major, minor, hwritten⟩
    obtain ⟨v, hv, -⟩ := hwritten.parse_eq
    exact ⟨v, hv⟩
  · intro major minor hwritten
    obtain ⟨w, hw, hnumbers⟩ := hwritten.parse_eq
    cases hv.symm.trans hw
    exact hnumbers
  · rintro rfl
    exact absurd (parse_isUnspecified hv) (by decide)
  · have hspecified := parse_isUnspecified hv
    obtain ⟨major, minor, rfl, -⟩ := parse_eq_ok_iff.1 hv
    exact parse_eq_ok_iff.2 ⟨major, minor, rfl, writtenAs_text hspecified⟩
  · intro other w hw
    have hspecified := parse_isUnspecified hv
    obtain ⟨major, minor, rfl, -⟩ := parse_eq_ok_iff.1 hv
    obtain ⟨major', minor', rfl, -⟩ := parse_eq_ok_iff.1 hw
    rw [atLeast_of_iff, hspecified, or_iff_right Bool.false_ne_true]
    simp only [major_of, minor_of]

/-- A text with a plus sign and leading zeros, and a version that it does not reach in spite of its
greater minor number. -/
theorem parse_meaning_leadingZeros :
    WrittenAs 1 255 "+001.255" ∧ parse "+001.255" = .ok (of 1 255) ∧ parse "2.0" = .ok (of 2 0) ∧
      parse (of 1 255).text = .ok (of 1 255) ∧ (of 1 255).atLeast (of 2 0) = false := by
  have hfirst : parse "+001.255" = .ok (of 1 255) := by rfl
  have hsecond : parse "2.0" = .ok (of 2 0) := by rfl
  obtain ⟨hwritten, hmeaning⟩ := parse_meaning "+001.255"
  obtain ⟨major, minor, h⟩ := hwritten.1 ⟨_, hfirst⟩
  obtain ⟨hnumbers, -, hback, horder⟩ := hmeaning _ hfirst
  obtain ⟨rfl, rfl⟩ := hnumbers major minor h
  refine ⟨h, hfirst, hsecond, hback, ?_⟩
  rw [Bool.eq_false_iff, ne_eq, horder "2.0" (of 2 0) hsecond]
  decide

end Version

end SpirvLegality
