import Mathlib.Data.List.TakeWhile
import SpirvLegality.Target.Feature

/-!
# Feature strings piece by piece

A feature string is read item by item, and the first item that is not understood decides the error
(`FeatureToggle.parseItems_eq_error_iff`). So a string of two parts with a comma between them
switches what the first part switches and then what the second part does
(`Target.withFeatures_append`).
-/

namespace SpirvLegality

/-- Only a text of blanks is trimmed to nothing. -/
theorem Text.trim_eq_nil_iff {text : List Char} :
    trim text = [] ↔ ∀ c ∈ text, isBlank c = true := by
  rw [trim, List.reverse_eq_nil_iff, List.dropWhile_eq_nil_iff]
  simp only [List.mem_reverse]
  constructor
  · intro h
    rw [← List.dropWhile_eq_nil_iff]
    cases hdrop : text.dropWhile isBlank with
    | nil => rfl
    | cons c rest =>
        have hfirst : isBlank c = false := by
          have hhead := List.head?_dropWhile_not isBlank text
          rwa [hdrop] at hhead
        rw [h c (hdrop ▸ List.mem_cons_self)] at hfirst
        cases hfirst
  · intro h c hc
    exact h c ((List.dropWhile_sublist isBlank).subset hc)

namespace FeatureToggle

/-- The items of a feature string. -/
def items (features : String) : List (List Char) := features.toList.splitOn ','

/-- An item of blanks only. -/
def IsBlank (item : List Char) : Prop := ∀ c ∈ item, Text.isBlank c = true

instance (item : List Char) : Decidable (IsBlank item) := List.decidableBAll _ item

/-- An item that is blank or switches a feature. -/
def Understood (item : List Char) : Prop :=
  IsBlank item ∨ ∃ toggle, parse (Text.trim item) = .ok toggle

/-- An item that is neither blank nor the switch of a feature, and what is wrong with it. -/
def Refused (item : List Char) (e : TargetError) : Prop :=
  ¬ IsBlank item ∧ parse (Text.trim item) = .error e

/-- The items of two strings with a comma between them are those of the one and of the other. -/
theorem items_append (first second : String) :
    items (first ++ "," ++ second) = items first ++ items second := by
  have hlist : (first ++ "," ++ second).toList = first.toList ++ ',' :: second.toList := by
    simp
  rw [items, hlist, List.splitOn_append_cons_self]
  rfl

/-- A blank item is left out. -/
theorem parseItems_cons_of_blank {item : List Char} (h : IsBlank item) (rest : List (List Char)) :
    parseItems (item :: rest) = parseItems rest := by
  have htrim : (Text.trim item).isEmpty = true := by
    rw [Text.trim_eq_nil_iff.2 h]
    rfl
  rw [parseItems]
  exact if_pos htrim

/-- An item that is not blank is the first switch, or decides the error. -/
theorem parseItems_cons_of_not_blank {item : List Char} (h : ¬ IsBlank item)
    (rest : List (List Char)) :
    parseItems (item :: rest) =
      (parse (Text.trim item)).bind fun first => (parseItems rest).map (first :: ·) := by
  have htrim : ¬ (Text.trim item).isEmpty = true := by
    rw [List.isEmpty_iff, Text.trim_eq_nil_iff]
    exact h
  rw [parseItems]
  show (if _ then _ else _) = _
  rw [if_neg htrim]
  cases parse (Text.trim item) with
  | error e => rfl
  | ok first => cases parseItems rest <;> rfl

/-- Items are read in turn. -/
theorem parseItems_append (before after : List (List Char)) :
    parseItems (before ++ after) =
      (parseItems before).bind fun toggles => (parseItems after).map (toggles ++ ·) := by
  induction before with
  | nil =>
      show parseItems after = (parseItems after).map ([] ++ ·)
      cases parseItems after <;> rfl
  | cons item before ih =>
      rw [List.cons_append]
      by_cases hblank : IsBlank item
      · rw [parseItems_cons_of_blank hblank, parseItems_cons_of_blank hblank, ih]
      · rw [parseItems_cons_of_not_blank hblank, parseItems_cons_of_not_blank hblank, ih]
        cases parse (Text.trim item) with
        | error e => rfl
        | ok first =>
            cases parseItems before with
            | error e => rfl
            | ok toggles => cases parseItems after <;> rfl

/-- Some items are understood, and the one behind them is refused. -/
def FirstRefused (items : List (List Char)) (e : TargetError) : Prop :=
  ∃ before item after, items = before ++ item :: after ∧ (∀ i ∈ before, Understood i) ∧
    Refused item e

theorem firstRefused_cons_iff {first : List Char} {rest : List (List Char)} {e : TargetError} :
    FirstRefused (first :: rest) e ↔ Refused first e ∨ Understood first ∧ FirstRefused rest e := by
  constructor
  · rintro ⟨before, item, after, hitems, hbefore, hitem⟩
    cases before with
    | nil =>
        cases hitems
        exact Or.inl hitem
    | cons i before =>
        cases hitems
        rw [List.forall_mem_cons] at hbefore
        exact Or.inr ⟨hbefore.1, before, item, after, rfl, hbefore.2, hitem⟩
  · rintro (hfirst | ⟨hfirst, before, item, after, rfl, hbefore, hitem⟩)
    · exact ⟨[], first, rest, rfl, nofun, hfirst⟩
    · exact ⟨first :: before, item, after, rfl, List.forall_mem_cons.2 ⟨hfirst, hbefore⟩, hitem⟩

/-- The first item that is not understood decides the error. -/
theorem parseItems_eq_error_iff {items : List (List Char)} {e : TargetError} :
    parseItems items = .error e ↔ FirstRefused items e := by
  induction items with
  | nil => exact ⟨nofun, fun ⟨before, item, after, h, _⟩ => by simp at h⟩
  | cons first rest ih =>
      rw [firstRefused_cons_iff, Understood, Refused]
      by_cases hblank : IsBlank first
      · rw [parseItems_cons_of_blank hblank, ih]
        simp only [hblank, not_true_eq_false, false_and, false_or, true_or, true_and]
      · rw [parseItems_cons_of_not_blank hblank, ← ih]
        cases parse (Text.trim first) with
        | error cause => simp [hblank, Except.bind]
        | ok toggle =>
            show (parseItems rest).map _ = _ ↔ _
            cases parseItems rest <;> simp [hblank, Except.map]

/-- Blank items do not matter. -/
theorem parseItems_filter (items : List (List Char)) :
    parseItems (items.filter fun item => ¬ IsBlank item) = parseItems items := by
  induction items with
  | nil => rfl
  | cons item rest ih =>
      by_cases hblank : IsBlank item
      · rw [List.filter_cons_of_neg (by simpa using hblank), parseItems_cons_of_blank hblank, ih]
      · rw [List.filter_cons_of_pos (by simpa using hblank), parseItems_cons_of_not_blank hblank,
          parseItems_cons_of_not_blank hblank, ih]

end FeatureToggle

namespace Target

theorem withFeatures_eq_map (t : Target) (features : String) :
    t.withFeatures features =
      (FeatureToggle.parseItems (FeatureToggle.items features)).map (·.foldl withToggle t) := by
  rw [withFeatures, FeatureToggle.parseAll]
  show (FeatureToggle.parseItems (FeatureToggle.items features) >>= _) = _
  cases FeatureToggle.parseItems (FeatureToggle.items features) <;> rfl

/-- Switching on the features of a string of two parts with a comma between them is switching those
of the first part and then those of the second, with the same error where one of them is refused.
The first item that is not understood decides the error, and blank items do not matter. -/
theorem withFeatures_append (t : Target) (first second : String) :
    t.withFeatures (first ++ "," ++ second) =
        (t.withFeatures first).bind (·.withFeatures second) ∧
      (∀ e, t.withFeatures first = .error e ↔
        FeatureToggle.FirstRefused (FeatureToggle.items first) e) ∧
      ∀ other,
        (FeatureToggle.items first).filter (fun item => ¬ FeatureToggle.IsBlank item) =
            (FeatureToggle.items other).filter (fun item => ¬ FeatureToggle.IsBlank item) →
          t.withFeatures first = t.withFeatures other := by
  refine ⟨?_, fun e => ?_, fun other hvisible => ?_⟩
  · rw [withFeatures_eq_map, withFeatures_eq_map t first, FeatureToggle.items_append,
      FeatureToggle.parseItems_append]
    cases FeatureToggle.parseItems (FeatureToggle.items first) with
    | error e => rfl
    | ok toggles =>
        show _ = (toggles.foldl withToggle t).withFeatures second
        rw [withFeatures_eq_map]
        cases FeatureToggle.parseItems (FeatureToggle.items second) with
        | error e => rfl
        | ok more => exact congrArg Except.ok List.foldl_append
  · rw [withFeatures_eq_map, ← FeatureToggle.parseItems_eq_error_iff]
    cases FeatureToggle.parseItems (FeatureToggle.items first) <;> simp [Except.map]
  · rw [withFeatures_eq_map, withFeatures_eq_map, ← FeatureToggle.parseItems_filter, hvisible,
      FeatureToggle.parseItems_filter]

/-- A part with blank items and one that names no feature at first. -/
theorem withFeatures_append_blanks :
    standard.withFeatures (" , +Shader ,\t" ++ "," ++ "Kernel,+Bogus") =
        (standard.withFeatures " , +Shader ,\t").bind (·.withFeatures "Kernel,+Bogus") ∧
      standard.withFeatures "Kernel,+Bogus" = .error (.malformedToggle "Kernel") ∧
      (FeatureToggle.items " , +Shader ,\t").filter (fun item => ¬ FeatureToggle.IsBlank item) =
        (FeatureToggle.items " +Shader ").filter (fun item => ¬ FeatureToggle.IsBlank item) ∧
      standard.withFeatures " , +Shader ,\t" = standard.withFeatures " +Shader " := by
  have hrefused : FeatureToggle.FirstRefused (FeatureToggle.items "Kernel,+Bogus")
      (.malformedToggle "Kernel") :=
    ⟨[], "Kernel".toList, ["+Bogus".toList], by decide, nofun, by decide, by rfl⟩
  have hvisible : (FeatureToggle.items " , +Shader ,\t").filter
      (fun item => ¬ FeatureToggle.IsBlank item) =
        (FeatureToggle.items " +Shader ").filter (fun item => ¬ FeatureToggle.IsBlank item) := by
    decide
  exact ⟨(withFeatures_append standard _ _).1,
    ((withFeatures_append standard "Kernel,+Bogus" "").2.1 _).2 hrefused, hvisible,
    (withFeatures_append standard _ "").2.2 _ hvisible⟩

end Target

end SpirvLegality
