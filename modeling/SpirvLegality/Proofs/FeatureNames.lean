import Mathlib.Data.List.Forall2
import SpirvLegality.Proofs.FeatureStrings
import SpirvLegality.Proofs.TableSearch

/-!
# Writing feature strings

A switch is written as a sign and the name of its feature, and blanks may stand around it
(`FeatureToggle.WrittenAs`). Names hold neither commas nor blanks, and no two features share one, be
they capabilities or extensions (`Capability.ofName?_eq_some_iff`, `Extension.ofName?_eq_some_iff`,
`Extension.ofName?_name_eq_none`). So a list of switches, written in this way with commas between
them, is read back, switch by switch (`Target.withFeatures_written`).
-/

namespace SpirvLegality

/-! ## Names -/

namespace Text

/-- A text can stand between commas and blanks, as it holds neither. -/
def Separable (text : List Char) : Prop := ∀ c ∈ text, c ≠ ',' ∧ isBlank c = false

/-- Digits, letters and the low line lie between `0` and `z`. -/
def isNameChar (c : Char) : Bool := 48 ≤ c.toNat && c.toNat ≤ 122

theorem isBlank_of_isNameChar {c : Char} (h : isNameChar c = true) : isBlank c = false := by
  simp only [isNameChar, Bool.and_eq_true, decide_eq_true_eq] at h
  refine Bool.eq_false_iff.2 fun hblank => ?_
  obtain ⟨r, hr, hfirst, hlast⟩ := exists_range_of_inRanges hblank
  have hranges : ∀ r ∈ blankRanges, r.2 < 48 ∨ 122 < r.1 := by decide
  rcases hranges r hr with hbelow | habove <;> omega

theorem separable_of_isNameChar {text : List Char} (h : text.all isNameChar = true) :
    Separable text := by
  intro c hc
  have hname := List.all_eq_true.1 h c hc
  refine ⟨?_, isBlank_of_isNameChar hname⟩
  rintro rfl
  exact absurd hname (by decide)

end Text

namespace Capability

theorem nodup_names : (values.map name).Nodup := by
  -- The letters of the names are compared much faster than the names.
  obtain ⟨letters, hletters, hnodup⟩ : ∃ letters,
      List.Forall₂ (fun cap text => cap.name = String.ofList text) values letters ∧
        letters.Nodup := ⟨_, by repeat' constructor, by decide +kernel⟩
  have hnames : values.map name = letters.map String.ofList := by
    rw [← List.forall₂_eq_eq_eq, List.forall₂_map_left_iff, List.forall₂_map_right_iff]
    exact hletters
  rw [hnames]
  exact hnodup.map fun _ _ => String.ofList_injective

/-- The name of a capability consists of letters and digits. -/
theorem all_name (cap : Capability) :
    cap.name.toList.all Text.isNameChar = true ∧ '_' ∉ cap.name.toList := by
  have hletters : ∃ text, cap.name = String.ofList text ∧ text.all Text.isNameChar = true ∧
      text.contains '_' = false := by
    cases cap <;> exact ⟨_, rfl, rfl, rfl⟩
  obtain ⟨text, hname, hall, hline⟩ := hletters
  rw [hname, String.toList_ofList]
  exact ⟨hall, by simpa using hline⟩

theorem ofName?_eq_find? (name : String) : ofName? name = values.find? (·.name == name) := by
  rw [ofName?, EnumTable.byName?, table, List.find?_map, Option.map_map]
  exact Option.map_id_apply

/-- A capability is found by its own name only. -/
theorem ofName?_eq_some_iff {name : String} {cap : Capability} :
    ofName? name = some cap ↔ cap.name = name := by
  rw [ofName?_eq_find?, find?_eq_some_iff_of_nodup nodup_names, and_iff_right (mem_values cap)]

end Capability

namespace Extension

theorem mem_values (ext : Extension) : ext ∈ values := Enumerated.mem_values ext

theorem nodup_names : (values.map name).Nodup := by decide +kernel

/-- The name of an extension consists of letters, digits and low lines, of which it has at least
one. -/
theorem all_name (ext : Extension) :
    ext.name.toList.all Text.isNameChar = true ∧ '_' ∈ ext.name.toList := by
  have hletters : ∃ text, ext.name = String.ofList text ∧ text.all Text.isNameChar = true ∧
      text[3]? = some '_' := by
    cases ext <;> exact ⟨_, rfl, rfl, rfl⟩
  obtain ⟨text, hname, hall, hline⟩ := hletters
  rw [hname, String.toList_ofList]
  exact ⟨hall, List.mem_of_getElem? hline⟩

/-- An extension is found by its own name only. -/
theorem ofName?_eq_some_iff {name : String} {ext : Extension} :
    ofName? name = some ext ↔ ext.name = name := by
  rw [ofName?, find?_eq_some_iff_of_nodup nodup_names, and_iff_right (mem_values ext)]

/-- No capability has the name of an extension. -/
theorem ofName?_name_eq_none (ext : Extension) : Capability.ofName? ext.name = none := by
  refine Option.eq_none_iff_forall_ne_some.2 fun cap hcap => ?_
  have hname := Capability.ofName?_eq_some_iff.1 hcap
  exact cap.all_name.2 (hname ▸ ext.all_name.2)

end Extension

/-! ## Switches in writing -/

/-- The blanks around a text are trimmed. -/
theorem Text.trim_append_of_blank {before text after : List Char}
    (hbefore : ∀ c ∈ before, isBlank c = true) (hafter : ∀ c ∈ after, isBlank c = true)
    (hne : text ≠ []) (htext : ∀ c ∈ text, isBlank c = false) :
    trim (before ++ text ++ after) = text := by
  obtain ⟨c, rest, rfl⟩ := List.exists_cons_of_ne_nil hne
  have hfirst : (before ++ (c :: rest) ++ after).dropWhile isBlank = c :: rest ++ after := by
    rw [List.append_assoc, List.dropWhile_append_of_pos hbefore]
    exact List.dropWhile_cons_of_neg (by simp [htext c List.mem_cons_self])
  have hlast : (c :: rest ++ after).reverse.dropWhile isBlank =
      (c :: rest).reverse.dropWhile isBlank := by
    rw [List.reverse_append, List.dropWhile_append_of_pos (by simpa using hafter)]
  have hkept : (c :: rest).reverse.dropWhile isBlank = (c :: rest).reverse := by
    refine List.dropWhile_eq_self_iff.2 fun hlength => ?_
    rw [htext _ (List.mem_reverse.1 (List.getElem_mem hlength))]
    exact Bool.false_ne_true
  rw [trim, hfirst, hlast, hkept, List.reverse_reverse]

namespace FeatureToggle

/-- The name of the feature that is switched. -/
def name : FeatureToggle → String
  | .capability cap _ => cap.name
  | .extension ext _ => ext.name

/-- Whether the feature is switched on. -/
def isOn : FeatureToggle → Bool
  | .capability _ on | .extension _ on => on

/-- A plus sign switches a feature on, a minus sign off. -/
def sign (on : Bool) : Char := if on then '+' else '-'

/-- A switch without blanks. -/
def text (toggle : FeatureToggle) : List Char := sign toggle.isOn :: toggle.name.toList

/-- A switch and the blanks around it, if there are any. -/
def WrittenAs (toggle : FeatureToggle) (item : String) : Prop :=
  ∃ before after, IsBlank before ∧ IsBlank after ∧ item.toList = before ++ toggle.text ++ after

theorem separable_text (toggle : FeatureToggle) : Text.Separable toggle.text := by
  have hname : Text.Separable toggle.name.toList := by
    cases toggle with
    | capability cap on => exact Text.separable_of_isNameChar cap.all_name.1
    | extension ext on => exact Text.separable_of_isNameChar ext.all_name.1
  have hsign : ∀ on, sign on ≠ ',' ∧ Text.isBlank (sign on) = false := by decide
  exact List.forall_mem_cons.2 ⟨hsign toggle.isOn, hname⟩

/-- A switch is read by its sign and its name. -/
theorem parse_text (toggle : FeatureToggle) : parse toggle.text = .ok toggle := by
  have hparse (on : Bool) (name : String) :
      parse (sign on :: name.toList) = named on name := by
    cases on <;> exact congrArg (named _) String.ofList_toList
  cases toggle with
  | capability cap on =>
      refine (hparse on cap.name).trans ?_
      rw [named, Capability.ofName?_eq_some_iff.2 rfl]
  | extension ext on =>
      refine (hparse on ext.name).trans ?_
      rw [named, ext.ofName?_name_eq_none]
      dsimp only
      rw [Extension.ofName?_eq_some_iff.2 rfl]

theorem WrittenAs.trim_eq {toggle : FeatureToggle} {item : String} (h : toggle.WrittenAs item) :
    Text.trim item.toList = toggle.text := by
  obtain ⟨before, after, hbefore, hafter, hitem⟩ := h
  rw [hitem]
  exact Text.trim_append_of_blank hbefore hafter (List.cons_ne_nil _ _)
    fun c hc => (toggle.separable_text c hc).2

theorem WrittenAs.comma_not_mem {toggle : FeatureToggle} {item : String}
    (h : toggle.WrittenAs item) : ',' ∉ item.toList := by
  obtain ⟨before, after, hbefore, hafter, hitem⟩ := h
  have hcomma : Text.isBlank ',' ≠ true := by decide
  rw [hitem, List.mem_append, List.mem_append]
  rintro ((hmem | hmem) | hmem)
  · exact hcomma (hbefore _ hmem)
  · exact (toggle.separable_text _ hmem).1 rfl
  · exact hcomma (hafter _ hmem)

/-- Switches in writing are read one after the other. -/
theorem parseItems_of_written {toggles : List FeatureToggle} {written : List String}
    (h : List.Forall₂ WrittenAs toggles written) :
    parseItems (written.map String.toList) = .ok toggles := by
  induction h with
  | nil => rfl
  | @cons toggle item toggles written hitem _ ih =>
      have hblank : ¬ IsBlank item.toList := by
        rw [IsBlank, ← Text.trim_eq_nil_iff, hitem.trim_eq]
        exact List.cons_ne_nil _ _
      rw [List.map_cons, parseItems_cons_of_not_blank hblank, hitem.trim_eq, parse_text, ih]
      rfl

theorem comma_not_mem_of_written {toggles : List FeatureToggle} {written : List String}
    (h : List.Forall₂ WrittenAs toggles written) :
    ∀ text ∈ written.map String.toList, ',' ∉ text := by
  induction h with
  | nil => nofun
  | cons hitem _ ih => exact List.forall_mem_cons.2 ⟨hitem.comma_not_mem, ih⟩

/-- A feature string of switches with commas between them is read as these switches. -/
theorem parseItems_items_of_written {toggles : List FeatureToggle} {written : List String}
    (h : List.Forall₂ WrittenAs toggles written) :
    parseItems (items (",".intercalate written)) = .ok toggles := by
  by_cases hne : written = []
  · -- The string without switches has one item, which is blank.
    subst hne
    cases h
    rfl
  · have hitems : items (",".intercalate written) = written.map String.toList := by
      rw [items, String.toList_intercalate]
      exact List.splitOn_intercalate ',' (comma_not_mem_of_written h) (by simpa using hne)
    rw [hitems, parseItems_of_written h]

/-- The capability that is switched, and whether it is switched on. -/
def capability? : FeatureToggle → Option (Capability × Bool)
  | .capability cap on => some (cap, on)
  | .extension _ _ => none

/-- The extension that is switched, and whether it is switched on. -/
def extension? : FeatureToggle → Option (Extension × Bool)
  | .capability _ _ => none
  | .extension ext on => some (ext, on)

end FeatureToggle

namespace Target

/-- Switches are added behind those of their kind, in order. -/
theorem foldl_withToggle (t : Target) (toggles : List FeatureToggle) :
    toggles.foldl withToggle t =
      { t with
        capabilityToggles := t.capabilityToggles ++ toggles.filterMap FeatureToggle.capability?
        extensionToggles := t.extensionToggles ++ toggles.filterMap FeatureToggle.extension? } := by
  induction toggles generalizing t with
  | nil => simp
  | cons toggle rest ih =>
      rw [List.foldl_cons, ih]
      cases toggle with
      | capability cap on =>
          simp [withToggle, withCapability, FeatureToggle.capability?, FeatureToggle.extension?,
            List.filterMap_cons]
      | extension ext on =>
          simp [withToggle, withExtension, FeatureToggle.capability?, FeatureToggle.extension?,
            List.filterMap_cons]

/-- Switches that are written in a feature string are added behind those of their kind, in order,
and nothing else of a target changes. -/
theorem withFeatures_written (t : Target) {toggles : List FeatureToggle} {written : List String}
    (h : List.Forall₂ FeatureToggle.WrittenAs toggles written) :
    t.withFeatures (",".intercalate written) =
      .ok { t with
        capabilityToggles := t.capabilityToggles ++ toggles.filterMap FeatureToggle.capability?
        extensionToggles :=
          t.extensionToggles ++ toggles.filterMap FeatureToggle.extension? } := by
  rw [withFeatures_eq_map, FeatureToggle.parseItems_items_of_written h, ← foldl_withToggle]
  rfl

/-- A target with a switch of its own, and three more with blanks of several kinds around them. -/
theorem withFeatures_written_multiview :
    (standard.withExtension .khrFloatControls false).withFeatures
        "+MultiView, -SPV_KHR_multiview\t,\u3000-Shader \n" =
      .ok { standard.withExtension .khrFloatControls false with
        capabilityToggles := [(.multiView, true), (.shader, false)]
        extensionToggles := [(.khrFloatControls, false), (.khrMultiview, false)] } := by
  have hwritten : List.Forall₂ FeatureToggle.WrittenAs
      [.capability .multiView true, .extension .khrMultiview false, .capability .shader false]
      ["+MultiView", " -SPV_KHR_multiview\t", "\u3000-Shader \n"] :=
    .cons ⟨[], [], by decide, by decide, rfl⟩ <|
      .cons ⟨[' '], ['\t'], by decide, by decide, rfl⟩ <|
        .cons ⟨['\u3000'], [' ', '\n'], by decide, by decide, rfl⟩ .nil
  have hjoined : "+MultiView, -SPV_KHR_multiview\t,\u3000-Shader \n" =
      ",".intercalate ["+MultiView", " -SPV_KHR_multiview\t", "\u3000-Shader \n"] := by
    decide +kernel
  rw [hjoined]
  exact withFeatures_written (standard.withExtension .khrFloatControls false) hwritten

end Target

end SpirvLegality
