/-!
# Numerals

Unsigned numerals in a base up to sixteen, read under an upper limit. A numeral has at least one
digit, any number of leading zeros, and a value within the limit; reading stops at the first digit
that carries the value beyond it.
-/

namespace SpirvLegality.Text

/-- The value of a digit in the given base; letters count from ten in either case. -/
def digitValue? (base : Nat) (c : Char) : Option Nat :=
  let value? :=
    if '0' ≤ c ∧ c ≤ '9' then some (c.toNat - '0'.toNat)
    else if 'a' ≤ c ∧ c ≤ 'f' then some (c.toNat - 'a'.toNat + 10)
    else if 'A' ≤ c ∧ c ≤ 'F' then some (c.toNat - 'A'.toNat + 10)
    else none
  value?.filter (· < base)

/-- Continues a numeral whose digits so far have the value `value`. -/
def readDigits (base limit value : Nat) : List Char → Option Nat
  | [] => some value
  | c :: rest =>
    match digitValue? base c with
    | none => none
    | some digit =>
      let next := value * base + digit
      if next ≤ limit then readDigits base limit next rest else none

/-- The value of a numeral of at least one digit, when it is at most `limit`. -/
def readNumeral (base limit : Nat) (digits : List Char) : Option Nat :=
  if digits.isEmpty then none else readDigits base limit 0 digits

/-- A decimal numeral of at most 255, with an optional plus sign before it. -/
def readByte (text : List Char) : Option UInt8 :=
  match text with
  | '+' :: digits => (readNumeral 10 255 digits).map UInt8.ofNat
  | digits => (readNumeral 10 255 digits).map UInt8.ofNat

/-- What is read of further digits stays within the limit. -/
theorem readDigits_le {base limit value result : Nat} {digits : List Char}
    (hvalue : value ≤ limit) (h : readDigits base limit value digits = some result) :
    result ≤ limit := by
  induction digits generalizing value with
  | nil => simp only [readDigits, Option.some.injEq] at h; omega
  | cons c rest ih =>
    simp only [readDigits] at h
    split at h
    · simp at h
    · split at h
      · exact ih ‹_› h
      · simp at h

/-- The value of a numeral stays within its limit. -/
theorem readNumeral_le {base limit result : Nat} {digits : List Char}
    (h : readNumeral base limit digits = some result) : result ≤ limit := by
  unfold readNumeral at h
  split at h
  · simp at h
  · exact readDigits_le (Nat.zero_le limit) h

end SpirvLegality.Text
