import SpirvLegality.Text.Numeral

/-!
# Version numbers

A version is the 32-bit word of a SPIR-V header: the major number in the second highest byte, the
minor number in the byte below it. The zero word is the *unspecified* version, which satisfies
every threshold. `Version.parse` reads the text `major.minor` and never yields the unspecified
version (`Version.parse_isUnspecified`).
-/

namespace SpirvLegality

/-- A version number, packed into the word of a SPIR-V header. -/
structure Version where
  bits : UInt32
deriving DecidableEq, Repr, Inhabited

/-- A text that is no version number. -/
structure VersionError where
  text : String
deriving DecidableEq, Repr

/-- The wording of a version error. -/
def VersionError.message (e : VersionError) : String :=
  "invalid version '" ++ e.text ++ "' (expected <major>.<minor>)"

namespace Version

/-- The version that stands for "any". -/
def unspecified : Version := ⟨0⟩

/-- The version with the given major and minor number. -/
def of (major minor : UInt8) : Version :=
  ⟨UInt32.ofNat (major.toNat * 65536 + minor.toNat * 256)⟩

/-- The major number. -/
def major (v : Version) : Nat := v.bits.toNat / 65536 % 256

/-- The minor number. -/
def minor (v : Version) : Nat := v.bits.toNat / 256 % 256

/-- Whether this is the version that stands for "any". -/
def isUnspecified (v : Version) : Bool := v.bits == 0

/-- Whether the version reaches a threshold; the unspecified version reaches every one. -/
def atLeast (v threshold : Version) : Bool :=
  v.isUnspecified || threshold.bits ≤ v.bits

/-- The text `major.minor`, or the word "unspecified". -/
def text (v : Version) : String :=
  if v.isUnspecified then "unspecified" else toString v.major ++ "." ++ toString v.minor

/-- The two numbers around the first point of a text. -/
def readParts (text : List Char) : Option (UInt8 × UInt8) :=
  match text.span (· != '.') with
  | (first, '.' :: second) => do
    let major ← Text.readByte first
    let minor ← Text.readByte second
    return (major, minor)
  | _ => none

/-- Reads `major.minor`, where each number is a decimal byte with an optional plus sign and the two
are not both zero. -/
def parse (text : String) : Except VersionError Version :=
  match readParts text.toList with
  | some (major, minor) =>
    if (of major minor).isUnspecified then .error ⟨text⟩ else .ok (of major minor)
  | none => .error ⟨text⟩

theorem toNat_bits_of (major minor : UInt8) :
    (of major minor).bits.toNat = major.toNat * 65536 + minor.toNat * 256 := by
  have hmajor := major.toNat_lt
  have hminor := minor.toNat_lt
  simp only [of, UInt32.toNat_ofNat']
  omega

@[simp] theorem major_of (major minor : UInt8) : (of major minor).major = major.toNat := by
  have hmajor := major.toNat_lt
  have hminor := minor.toNat_lt
  rw [Version.major, toNat_bits_of]
  omega

@[simp] theorem minor_of (major minor : UInt8) : (of major minor).minor = minor.toNat := by
  have hmajor := major.toNat_lt
  have hminor := minor.toNat_lt
  rw [Version.minor, toNat_bits_of]
  omega

/-- A version that was read is never the unspecified one. -/
theorem parse_isUnspecified {text : String} {v : Version} (h : parse text = .ok v) :
    v.isUnspecified = false := by
  unfold parse at h
  split at h
  · split at h
    · simp at h
    · simp only [Except.ok.injEq] at h
      subst h
      exact Bool.eq_false_iff.2 ‹_›
  · simp at h

end Version

end SpirvLegality
