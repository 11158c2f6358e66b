import SpirvLegality.Proofs.TripleComponents

/-!
# Triples

A text is accepted if its components are (`Target.exists_ofTriple_iff`). So the accepted texts are
the triples, and the texts whose architecture ends in the letter `v` without a version
(`Target.ofTriple_accepts_iff`). `Target.ofTriple_meaning` says what an accepted text means.
-/

namespace SpirvLegality.Target

/-! ## Which triples are accepted -/

theorem ofComponents_eq_ok_iff {triple : String} {arch : List Char} {rest : List (List Char)}
    {t : Target} :
    ofComponents triple arch rest = .ok t ↔
      ∃ addressing spirv api version, readArchitecture arch = .ok (addressing, spirv) ∧
        readApi triple .unspecified none rest = .ok (api, version) ∧
        t = {
          triple, addressing, api
          spirv := spirv.getD defaultSpirv
          openCl := if api = .vulkan then .unspecified else version.getD defaultOpenCl
          vulkan := if api = .vulkan then version.getD defaultVulkan else .unspecified } := by
  simp only [ofComponents, except_bind_eq_ok_iff, Prod.exists, pure, Except.pure, Except.ok.injEq,
    @eq_comm _ t]
  constructor
  · rintro ⟨addressing, spirv, harch, api, version, hapi, ht⟩
    exact ⟨addressing, spirv, api, version, harch, hapi, ht⟩
  · rintro ⟨addressing, spirv, api, version, harch, hapi, ht⟩
    exact ⟨addressing, spirv, harch, api, version, hapi, ht⟩

theorem exists_ofComponents_iff {triple : String} {arch : List Char} {rest : List (List Char)} :
    (∃ t, ofComponents triple arch rest = .ok t) ↔
      (IsArchitecture arch ∨ LacksVersion arch) ∧ NamesOneApi rest := by
  rw [← exists_readArchitecture_iff, ← exists_readApi_iff triple]
  simp only [ofComponents_eq_ok_iff]
  constructor
  · rintro ⟨t, addressing, spirv, api, version, harch, hapi, -⟩
    exact ⟨⟨_, harch⟩, ⟨_, hapi⟩⟩
  · rintro ⟨⟨⟨addressing, spirv⟩, harch⟩, ⟨⟨api, version⟩, hapi⟩⟩
    exact ⟨_, addressing, spirv, api, version, harch, hapi, rfl⟩

/-- The texts that are triples: three or four components, of which the first one is an architecture
and the others name at most one client interface. -/
def IsTriple (triple : String) : Prop :=
  ∃ arch rest, Components triple arch rest ∧ IsArchitecture arch ∧ NamesOneApi rest

/-- The texts that would be triples if a version stood behind the letter `v`. -/
def LacksSpirvVersion (triple : String) : Prop :=
  ∃ arch rest, Components triple arch rest ∧ LacksVersion arch ∧ NamesOneApi rest

theorem Components.unique {triple : String} {arch other : List Char}
    {rest others : List (List Char)} (h : Components triple arch rest)
    (hother : Components triple other others) : arch = other ∧ rest = others := by
  have hsplit := (components_iff.1 h).1.symm.trans (components_iff.1 hother).1
  cases hsplit
  exact ⟨rfl, rfl⟩

theorem IsTriple.not_lacksSpirvVersion {triple : String} (h : IsTriple triple) :
    ¬ LacksSpirvVersion triple := by
  rintro ⟨other, others, hother, hlacks, -⟩
  obtain ⟨arch, rest, hcomponents, harch, -⟩ := h
  obtain ⟨rfl, -⟩ := hcomponents.unique hother
  exact harch.not_lacksVersion hlacks

/-- A text is accepted if it consists of components that are. -/
theorem exists_ofTriple_iff {triple : String} :
    (∃ t, ofTriple triple = .ok t) ↔ ∃ arch rest, Components triple arch rest ∧
      (IsArchitecture arch ∨ LacksVersion arch) ∧ NamesOneApi rest := by
  simp only [ofTriple_eq_ok_iff]
  constructor
  · rintro ⟨t, arch, rest, hcomponents, ht⟩
    exact ⟨arch, rest, hcomponents, exists_ofComponents_iff.1 ⟨t, ht⟩⟩
  · rintro ⟨arch, rest, hcomponents, haccepted⟩
    obtain ⟨t, ht⟩ := exists_ofComponents_iff.2 haccepted
    exact ⟨t, arch, rest, hcomponents, ht⟩

/-- The texts that are accepted are the triples, and the texts that lack a version behind the letter
`v`, which are no triples. -/
theorem ofTriple_accepts_iff (triple : String) :
    ((∃ t, ofTriple triple = .ok t) ↔ IsTriple triple ∨ LacksSpirvVersion triple) ∧
      ¬ (IsTriple triple ∧ LacksSpirvVersion triple) := by
  refine ⟨?_, fun h => h.1.not_lacksSpirvVersion h.2⟩
  rw [exists_ofTriple_iff]
  simp only [IsTriple, LacksSpirvVersion, or_and_right, and_or_left, exists_or]

/-- A Vulkan target whose architecture ends in the letter `v` is accepted, though this is no
triple. -/
theorem ofTriple_accepts_bareMark :
    ¬ ((∃ t, ofTriple "spirvv-unknown-vulkan" = .ok t) ↔ IsTriple "spirvv-unknown-vulkan") := by
  have hread : ofTriple "spirvv-unknown-vulkan" = .ok {
      triple := "spirvv-unknown-vulkan"
      addressing := .logical
      api := .vulkan
      spirv := .of 1 4
      openCl := .unspecified
      vulkan := .of 1 1 } := by
    rfl
  obtain ⟨arch, rest, hcomponents, -, hapi⟩ := exists_ofTriple_iff.1 ⟨_, hread⟩
  have hlacks : LacksVersion arch := by
    have hsplit := (components_iff.1 hcomponents).1
    cases hsplit
    exact ⟨.logical, rfl⟩
  exact fun h => (h.1 ⟨_, hread⟩).not_lacksSpirvVersion ⟨arch, rest, hcomponents, hlacks, hapi⟩

/-! ## What a triple means -/

/-- What an accepted triple means. The version of SPIR-V is the one behind the letter `v` of the
architecture, or 1.4 where there is none, and is never unspecified. The client interface is the one
that a further component names. Its version is that of the last component that has one, or 1.1 for
Vulkan and 2.2 otherwise, and the version of the other client interface is unspecified. -/
theorem ofTriple_meaning {triple : String} {t : Target} (h : ofTriple triple = .ok t) :
    ∃ arch rest, Components triple arch rest ∧
      ((∀ v, GivesSpirv arch v → t.spirv = v) ∧
        ((∀ v, ¬ GivesSpirv arch v) → t.spirv = .of 1 4) ∧ t.spirv ≠ .unspecified) ∧
      ((t.api = .vulkan ↔ NamedIn .vulkan rest) ∧ (t.api = .openCl ↔ NamedIn .openCl rest) ∧
        (t.api = .unspecified ↔ ¬ NamedIn .vulkan rest ∧ ¬ NamedIn .openCl rest)) ∧
      (t.api = .vulkan →
        (∀ v, LatestVersion rest v → t.vulkan = v) ∧
          ((∀ c ∈ rest, ∀ v, ¬ Carries c v) → t.vulkan = .of 1 1) ∧ t.openCl = .unspecified) ∧
      (t.api ≠ .vulkan →
        (∀ v, LatestVersion rest v → t.openCl = v) ∧
          ((∀ c ∈ rest, ∀ v, ¬ Carries c v) → t.openCl = .of 2 2) ∧ t.vulkan = .unspecified) := by
  obtain ⟨arch, rest, hcomponents, hread⟩ := ofTriple_eq_ok_iff.1 h
  obtain ⟨addressing, spirv, api, version, harch, hapi, rfl⟩ := ofComponents_eq_ok_iff.1 hread
  obtain ⟨hgiven, hnone⟩ := version_of_readArchitecture harch
  have hvulkan := eq_iff_namedIn .vulkan nofun hapi
  have hopenCl := eq_iff_namedIn .openCl nofun hapi
  refine ⟨arch, rest, hcomponents, ⟨?_, ?_, ?_⟩, ⟨hvulkan, hopenCl, ?_⟩, ?_, ?_⟩
  · intro v hv
    rw [hgiven v hv]
    rfl
  · intro hv
    rw [hnone hv]
    rfl
  · exact getD_ne_unspecified_of_readArchitecture harch
  · rw [← hvulkan, ← hopenCl]
    cases api <;> simp
  · rintro rfl
    obtain ⟨hlatest, hdefault⟩ := getD_latest_of_readApi defaultVulkan hapi
    exact ⟨hlatest, hdefault, rfl⟩
  · intro hother
    obtain ⟨hlatest, hdefault⟩ := getD_latest_of_readApi defaultOpenCl hapi
    dsimp only at hother ⊢
    rw [if_neg hother, if_neg hother]
    exact ⟨hlatest, hdefault, rfl⟩

/-- A Vulkan target of version 1.2 whose last component names Vulkan without a version. -/
def vulkanTwice : Target where
  triple := "spirvv1.3-vulkan1.2-vulkan"
  addressing := .logical
  api := .vulkan
  spirv := .of 1 3
  openCl := .unspecified
  vulkan := .of 1 2

/-- The version of Vulkan that a component without a version leaves as it is. -/
theorem ofTriple_meaning_vulkanTwice :
    ofTriple "spirvv1.3-vulkan1.2-vulkan" = .ok vulkanTwice ∧
      GivesSpirv "spirvv1.3".toList (.of 1 3) ∧
      LatestVersion ["vulkan1.2".toList, "vulkan".toList] (.of 1 2) ∧
      vulkanTwice.spirv = .of 1 3 ∧ vulkanTwice.vulkan = .of 1 2 := by
  have hread : ofTriple "spirvv1.3-vulkan1.2-vulkan" = .ok vulkanTwice := by rfl
  have hgiven : GivesSpirv "spirvv1.3".toList (.of 1 3) := ⟨.logical, "1.3".toList, rfl, rfl⟩
  have hlatest : LatestVersion ["vulkan1.2".toList, "vulkan".toList] (.of 1 2) := by
    refine ⟨[], _, _, rfl, ⟨.vulkan, "1.2".toList, ⟨nofun, rfl⟩, rfl⟩, ?_⟩
    rintro d hd w ⟨api, suffix, hnamed, hspelled⟩
    rw [List.mem_singleton.1 hd] at hnamed
    have hbare : ClientApi.vulkan.NamedBy "vulkan".toList [] := ⟨nofun, rfl⟩
    rw [(namedBy_unique hnamed hbare).2] at hspelled
    exact Version.not_spelledBy_nil w hspelled
  obtain ⟨arch, rest, hcomponents, hspirv, -, hvulkan, -⟩ := ofTriple_meaning hread
  have hsplit := (components_iff.1 hcomponents).1
  cases hsplit
  exact ⟨hread, hgiven, hlatest, hspirv.1 _ hgiven, (hvulkan rfl).1 _ hlatest⟩

end SpirvLegality.Target
