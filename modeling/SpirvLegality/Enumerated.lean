/-!
# Enumerated types and their subsets

A type is *enumerated* when its values are listed, each once, in a fixed order. `EnumSet` is a
subset of such a type, held as its membership test and listed in the order of the type. The
lemmas say what each operation does to membership; two sets with the same members are equal.
-/

namespace SpirvLegality

/-- A finite type together with the list of its values, each once, in their fixed order. -/
class Enumerated (α : Type) where
  values : List α
  mem_values : ∀ a : α, a ∈ values
  nodup_values : values.Nodup

/-- A subset of an enumerated type. -/
structure EnumSet (α : Type) where
  contains : α → Bool

namespace EnumSet

variable {α : Type}

instance : Membership α (EnumSet α) where
  mem s a := s.contains a = true

instance (a : α) (s : EnumSet α) : Decidable (a ∈ s) :=
  inferInstanceAs (Decidable (s.contains a = true))

theorem mem_def {a : α} {s : EnumSet α} : a ∈ s ↔ s.contains a = true := Iff.rfl

/-- Two sets with the same members are equal. -/
@[ext] theorem ext {s t : EnumSet α} (h : ∀ a, a ∈ s ↔ a ∈ t) : s = t := by
  cases s with
  | mk f =>
    cases t with
    | mk g => exact congrArg EnumSet.mk (funext fun a => Bool.eq_iff_iff.2 (h a))

/-- The set without members. -/
def empty : EnumSet α := ⟨fun _ => false⟩

@[simp] theorem not_mem_empty (a : α) : a ∉ (empty : EnumSet α) := by
  simp [mem_def, empty]

section Listing

variable [Enumerated α]

/-- The members, in the order of the type. -/
def toList (s : EnumSet α) : List α := (Enumerated.values).filter s.contains

@[simp] theorem mem_toList {s : EnumSet α} {a : α} : a ∈ s.toList ↔ a ∈ s := by
  simp [toList, mem_def, Enumerated.mem_values]

end Listing

variable [DecidableEq α]

/-- The set with one member more. -/
def insert (s : EnumSet α) (a : α) : EnumSet α := ⟨fun b => b = a || s.contains b⟩

/-- The set without a given member. -/
def erase (s : EnumSet α) (a : α) : EnumSet α := ⟨fun b => b ≠ a && s.contains b⟩

/-- The set in which exactly one value is switched on or off. -/
def assign (s : EnumSet α) (a : α) (on : Bool) : EnumSet α :=
  if on then s.insert a else s.erase a

@[simp] theorem mem_insert {s : EnumSet α} {a b : α} : b ∈ s.insert a ↔ b = a ∨ b ∈ s := by
  simp [mem_def, insert]

@[simp] theorem mem_erase {s : EnumSet α} {a b : α} : b ∈ s.erase a ↔ b ≠ a ∧ b ∈ s := by
  simp [mem_def, erase]

theorem mem_assign {s : EnumSet α} {a b : α} {on : Bool} :
    b ∈ s.assign a on ↔ if b = a then on = true else b ∈ s := by
  unfold assign
  cases on <;> by_cases h : b = a <;> simp [h]

/-- Inserting a member changes nothing. -/
theorem insert_of_mem {s : EnumSet α} {a : α} (h : a ∈ s) : s.insert a = s := by
  ext b
  simp only [mem_insert, or_iff_right_iff_imp]
  rintro rfl
  exact h

variable [Enumerated α]

/-- The number of values that are no members. -/
def missing (s : EnumSet α) : Nat := (Enumerated.values : List α).countP fun a => !s.contains a

/-- A new member leaves one value fewer missing. -/
theorem missing_insert_lt {s : EnumSet α} {a : α} (h : a ∉ s) :
    (s.insert a).missing < s.missing := by
  have hle : ∀ l : List α, l.countP (fun b => !(s.insert a).contains b) ≤
      l.countP (fun b => !s.contains b) := fun l =>
    List.countP_mono_left fun b _ => by simp [insert]
  have hlt : ∀ l : List α, a ∈ l → l.countP (fun b => !(s.insert a).contains b) <
      l.countP (fun b => !s.contains b) := by
    intro l
    induction l with
    | nil => simp
    | cons b rest ih =>
      intro ha
      simp only [List.countP_cons]
      rcases List.mem_cons.1 ha with rfl | ha
      · have hs : s.contains a = false := by simpa [mem_def] using h
        have hi : (s.insert a).contains a = true := by simp [insert]
        have := hle rest
        simp only [hs, hi]
        simp
        omega
      · have hrest := ih ha
        by_cases hb : (s.insert a).contains b = true
        · simp only [hb]
          simp
          omega
        · have hsb : s.contains b = false := by
            simp [insert] at hb
            exact hb.2
          simp only [hb, hsb]
          simp
          omega
  exact hlt _ (Enumerated.mem_values a)

end EnumSet

end SpirvLegality
