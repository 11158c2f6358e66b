import SpirvLegality.Proofs.Resolution
import SpirvLegality.Target.Triple

/-!
# The components of a triple

A triple consists of an architecture and two or three further components (`Target.Components`). An
architecture is accepted if it is the word of an addressing, possibly with the letter `v` and a
version (`Target.exists_readArchitecture_iff`), and the further components if they name at most one
client interface (`Target.exists_readApi_iff`). Of several versions of the client interface the last
one is read (`Target.latest_of_readApi`).
-/

namespace SpirvLegality

/-- Some characters are the text of a version. -/
def Version.SpelledBy (v : Version) (text : List Char) : Prop :=
  Version.parse (String.ofList text) = .ok v

theorem Version.SpelledBy.unique {v w : Version} {text : List Char} (hv : v.SpelledBy text)
    (hw : w.SpelledBy text) : v = w :=
  Except.ok.inj (hv.symm.trans hw)

/-- No version has an empty text. -/
theorem Version.not_spelledBy_nil (v : Version) : ¬ v.SpelledBy [] := by
  have hparse : Version.parse (String.ofList []) = .error ⟨""⟩ := rfl
  rw [SpelledBy, hparse]
  nofun

/-- A version that has a text is never the unspecified one. -/
theorem Version.SpelledBy.ne_unspecified {v : Version} {text : List Char} (h : v.SpelledBy text) :
    v ≠ .unspecified := by
  rintro rfl
  exact absurd (Version.parse_isUnspecified h) (by decide)

/-- The word with which an architecture begins. -/
def Addressing.word : Addressing → List Char
  | .logical => "spirv".toList
  | .physical32 => "spirv32".toList
  | .physical64 => "spirv64".toList

/-- A component begins with the name of a client interface and goes on with a suffix. -/
def ClientApi.NamedBy (api : ClientApi) (component suffix : List Char) : Prop :=
  api ≠ .unspecified ∧ component = api.name.toList ++ suffix

namespace Target

/-! ## Components -/

/-- A triple is an architecture and two or three further components, none of them empty, with dashes
between them. -/
structure Components (triple : String) (arch : List Char) (rest : List (List Char)) : Prop where
  triple_eq : triple.toList = ['-'].intercalate (arch :: rest)
  separated : ∀ c ∈ arch :: rest, c ≠ [] ∧ '-' ∉ c
  length_eq : rest.length = 2 ∨ rest.length = 3

/-- The pieces between separators hold no separator. -/
theorem not_mem_of_mem_splitOn {sep : Char} {text piece : List Char}
    (h : piece ∈ text.splitOn sep) : sep ∉ piece := by
  induction text generalizing piece with
  | nil =>
      rw [List.splitOn_nil, List.mem_singleton] at h
      rw [h]
      exact List.not_mem_nil
  | cons c text ih =>
      obtain ⟨first, others, hsplit⟩ := List.exists_cons_of_ne_nil (List.splitOn_ne_nil sep text)
      rw [hsplit] at ih
      rw [List.splitOn_cons_eq_if_modifyHead, hsplit] at h
      by_cases hc : (c == sep) = true
      · rw [if_pos hc, List.mem_cons] at h
        rcases h with rfl | h
        · exact List.not_mem_nil
        · exact ih h
      · rw [if_neg hc, List.modifyHead_cons, List.mem_cons] at h
        rcases h with rfl | h
        · have hfirst := ih List.mem_cons_self
          rw [List.mem_cons, not_or]
          exact ⟨fun h => hc (beq_iff_eq.2 h.symm), hfirst⟩
        · exact ih (List.mem_cons_of_mem _ h)

/-- The components of a triple are the pieces between its dashes. -/
theorem components_iff {triple : String} {arch : List Char} {rest : List (List Char)} :
    Components triple arch rest ↔
      triple.toList.splitOn '-' = arch :: rest ∧ [] ∉ arch :: rest ∧
        (rest.length = 2 ∨ rest.length = 3) := by
  constructor
  · rintro ⟨htriple, hseparated, hlength⟩
    refine ⟨?_, fun hnil => (hseparated _ hnil).1 rfl, hlength⟩
    rw [htriple]
    exact List.splitOn_intercalate '-' (fun c hc => (hseparated c hc).2) (List.cons_ne_nil _ _)
  · rintro ⟨hsplit, hnil, hlength⟩
    refine ⟨?_, fun c hc => ⟨?_, ?_⟩, hlength⟩
    · rw [← hsplit, List.intercalate_splitOn]
    · rintro rfl
      exact hnil hc
    · exact not_mem_of_mem_splitOn (hsplit ▸ hc)

/-- A triple is accepted if its components are. -/
theorem ofTriple_eq_ok_iff {triple : String} {t : Target} :
    ofTriple triple = .ok t ↔
      ∃ arch rest, Components triple arch rest ∧ ofComponents triple arch rest = .ok t := by
  simp only [components_iff]
  rw [ofTriple]
  cases hsplit : triple.toList.splitOn '-' with
  | nil => exact absurd hsplit (List.splitOn_ne_nil _ _)
  | cons arch rest =>
      dsimp only
      split
      · next hbad =>
          refine iff_of_false nofun ?_
          rintro ⟨a, r, ⟨heq, hnil, hlength⟩, -⟩
          cases heq
          simp only [List.length_cons] at hbad
          rcases hbad with h | h | h
          · omega
          · omega
          · exact hnil h
      · next hgood =>
          simp only [List.length_cons, not_or] at hgood
          constructor
          · exact fun h => ⟨arch, rest, ⟨rfl, hgood.2.2, by omega⟩, h⟩
          · rintro ⟨a, r, ⟨heq, -, -⟩, h⟩
            cases heq
            exact h

/-! ## Suffixes -/

/-- What may follow the word of a component: nothing, or a version. -/
inductive VersionSuffix : List Char → Option Version → Prop
  | absent : VersionSuffix [] none
  | given {suffix : List Char} {v : Version} (h : v.SpelledBy suffix) :
      VersionSuffix suffix (some v)

theorem versionSuffix_eq_ok_iff {component suffix : List Char} {version : Option Version} :
    versionSuffix component suffix = .ok version ↔ VersionSuffix suffix version := by
  constructor
  · intro h
    unfold versionSuffix at h
    split at h
    · next hempty =>
        cases h
        rw [List.isEmpty_iff.1 hempty]
        exact .absent
    · split at h
      · next hparse =>
          cases h
          exact .given hparse
      · cases h
  · intro h
    cases h with
    | absent => rfl
    | @given _ v hv =>
        have hne : ¬ suffix.isEmpty = true := by
          intro hempty
          rw [List.isEmpty_iff.1 hempty] at hv
          exact Version.not_spelledBy_nil v hv
        have hparse : Version.parse (String.ofList suffix) = .ok v := hv
        rw [versionSuffix, if_neg hne, hparse]

theorem exists_versionSuffix_iff {suffix : List Char} :
    (∃ version, VersionSuffix suffix version) ↔ suffix = [] ∨ ∃ v, Version.SpelledBy v suffix := by
  constructor
  · rintro ⟨version, hsuffix⟩
    cases hsuffix with
    | absent => exact Or.inl rfl
    | given hv => exact Or.inr ⟨_, hv⟩
  · rintro (rfl | ⟨v, hv⟩)
    · exact ⟨none, .absent⟩
    · exact ⟨some v, .given hv⟩

/-- A suffix that is the text of a version gives this version. -/
theorem VersionSuffix.eq_some {suffix : List Char} {version : Option Version} {v : Version}
    (h : VersionSuffix suffix version) (hv : v.SpelledBy suffix) : version = some v := by
  cases h with
  | absent => exact absurd hv (Version.not_spelledBy_nil v)
  | given hw => rw [hw.unique hv]

/-! ## The architecture -/

/-- The word of an architecture begins it. -/
theorem eq_append_of_addressingOf? {arch rest : List Char} {addressing : Addressing}
    (h : addressingOf? arch = some (addressing, rest)) : arch = addressing.word ++ rest := by
  unfold addressingOf? at h
  split at h
  · next hafter =>
      cases h
      exact Text.after?_eq_some_iff.1 hafter
  · split at h
    · next hafter =>
        cases h
        exact Text.after?_eq_some_iff.1 hafter
    · obtain ⟨suffix, hafter, hsuffix⟩ := Option.map_eq_some_iff.1 h
      cases hsuffix
      exact Text.after?_eq_some_iff.1 hafter

/-- A word behind which nothing or the letter `v` stands is the word of an architecture. -/
theorem addressingOf?_append (addressing : Addressing) {rest : List Char}
    (h : rest = [] ∨ rest.head? = some 'v') :
    addressingOf? (addressing.word ++ rest) = some (addressing, rest) := by
  cases addressing with
  | logical =>
    rcases h with rfl | h
    · rfl
    · obtain ⟨suffix, rfl⟩ := List.head?_eq_some_iff.1 h
      rfl
  | physical32 => rfl
  | physical64 => rfl

/-- An architecture is the word of an addressing, and possibly the letter `v` and what may follow
it. -/
theorem readArchitecture_eq_ok_iff {arch : List Char} {addressing : Addressing}
    {version : Option Version} :
    readArchitecture arch = .ok (addressing, version) ↔
      arch = addressing.word ∧ version = none ∨
        ∃ suffix, arch = addressing.word ++ 'v' :: suffix ∧ VersionSuffix suffix version := by
  constructor
  · intro h
    unfold readArchitecture at h
    split at h
    · cases h
    · next hword =>
        cases h
        exact Or.inl ⟨(eq_append_of_addressingOf? hword).trans (List.append_nil _), rfl⟩
    · next hword =>
        rw [except_bind_eq_ok_iff] at h
        obtain ⟨found, hsuffix, hfound⟩ := h
        cases hfound
        exact Or.inr ⟨_, eq_append_of_addressingOf? hword, versionSuffix_eq_ok_iff.1 hsuffix⟩
    · cases h
  · rintro (⟨rfl, rfl⟩ | ⟨suffix, rfl, hsuffix⟩)
    · have hword : addressingOf? (addressing.word ++ []) = some (addressing, []) :=
        addressingOf?_append addressing (Or.inl rfl)
      rw [List.append_nil] at hword
      rw [readArchitecture, hword]
    · rw [readArchitecture, addressingOf?_append addressing (Or.inr rfl)]
      show (versionSuffix _ suffix >>= _) = _
      rw [versionSuffix_eq_ok_iff.2 hsuffix]
      rfl

/-- The word of an architecture and what stands behind it are read off it. -/
theorem word_append_inj {addressing found : Addressing} {rest other : List Char}
    (hrest : rest = [] ∨ rest.head? = some 'v') (hother : other = [] ∨ other.head? = some 'v')
    (h : addressing.word ++ rest = found.word ++ other) : addressing = found ∧ rest = other := by
  have hread := addressingOf?_append addressing hrest
  rw [h, addressingOf?_append found hother] at hread
  cases hread
  exact ⟨rfl, rfl⟩

/-- An architecture gives the version of SPIR-V that stands behind the letter `v`. -/
def GivesSpirv (arch : List Char) (v : Version) : Prop :=
  ∃ addressing : Addressing, ∃ suffix, arch = addressing.word ++ 'v' :: suffix ∧
    v.SpelledBy suffix

/-- An architecture is the word of an addressing, possibly with a version of SPIR-V. -/
def IsArchitecture (arch : List Char) : Prop :=
  (∃ addressing : Addressing, arch = addressing.word) ∨ ∃ v, GivesSpirv arch v

/-- A component is the word of an addressing and the letter `v` without a version. -/
def LacksVersion (arch : List Char) : Prop :=
  ∃ addressing : Addressing, arch = addressing.word ++ ['v']

theorem exists_readArchitecture_iff {arch : List Char} :
    (∃ r, readArchitecture arch = .ok r) ↔ IsArchitecture arch ∨ LacksVersion arch := by
  simp only [Prod.exists, readArchitecture_eq_ok_iff]
  constructor
  · rintro ⟨addressing, version, ⟨harch, -⟩ | ⟨suffix, harch, hsuffix⟩⟩
    · exact Or.inl (Or.inl ⟨addressing, harch⟩)
    · cases hsuffix with
      | absent => exact Or.inr ⟨addressing, harch⟩
      | given hv => exact Or.inl (Or.inr ⟨_, addressing, suffix, harch, hv⟩)
  · rintro ((⟨addressing, harch⟩ | ⟨v, addressing, suffix, harch, hv⟩) | ⟨addressing, harch⟩)
    · exact ⟨addressing, none, Or.inl ⟨harch, rfl⟩⟩
    · exact ⟨addressing, some v, Or.inr ⟨suffix, harch, .given hv⟩⟩
    · exact ⟨addressing, none, Or.inr ⟨[], harch, .absent⟩⟩

/-- The letter `v` without a version ends no architecture. -/
theorem IsArchitecture.not_lacksVersion {arch : List Char} (h : IsArchitecture arch) :
    ¬ LacksVersion arch := by
  rintro ⟨found, hfound⟩
  rcases h with ⟨addressing, harch⟩ | ⟨v, addressing, suffix, harch, hv⟩
  · have hword : addressing.word ++ [] = found.word ++ ['v'] := by
      rw [List.append_nil, ← harch, hfound]
    cases (word_append_inj (Or.inl rfl) (Or.inr rfl) hword).2
  · have hsuffix := (word_append_inj (Or.inr rfl) (Or.inr rfl) (harch.symm.trans hfound)).2
    cases hsuffix
    exact Version.not_spelledBy_nil v hv

/-- The version of SPIR-V that is read is the one that the architecture gives, if it gives one. -/
theorem version_of_readArchitecture {arch : List Char} {addressing : Addressing}
    {version : Option Version} (h : readArchitecture arch = .ok (addressing, version)) :
    (∀ v, GivesSpirv arch v → version = some v) ∧
      ((∀ v, ¬ GivesSpirv arch v) → version = none) := by
  constructor
  · rintro v ⟨found, suffix, harch, hv⟩
    rw [readArchitecture_eq_ok_iff.2 (Or.inr ⟨suffix, harch, .given hv⟩)] at h
    cases h
    rfl
  · intro hnone
    rcases readArchitecture_eq_ok_iff.1 h with ⟨-, hversion⟩ | ⟨suffix, harch, hsuffix⟩
    · exact hversion
    · cases hsuffix with
      | absent => rfl
      | given hv => exact absurd ⟨addressing, suffix, harch, hv⟩ (hnone _)

/-- The version of SPIR-V of an accepted architecture is never the unspecified one. -/
theorem getD_ne_unspecified_of_readArchitecture {arch : List Char} {addressing : Addressing}
    {version : Option Version} (h : readArchitecture arch = .ok (addressing, version)) :
    version.getD defaultSpirv ≠ .unspecified := by
  rcases readArchitecture_eq_ok_iff.1 h with ⟨-, rfl⟩ | ⟨suffix, -, hsuffix⟩
  · decide
  · cases hsuffix with
    | absent => decide
    | given hv => exact hv.ne_unspecified

/-! ## The client interface -/

/-- A component names the client interface with whose name it begins. -/
theorem apiOf?_eq_some_iff {component suffix : List Char} {api : ClientApi} :
    apiOf? component = some (api, suffix) ↔ api.NamedBy component suffix := by
  unfold apiOf?
  split
  · next found hvulkan =>
      rw [Text.after?_eq_some_iff] at hvulkan
      constructor
      · rintro ⟨⟩
        exact ⟨nofun, hvulkan⟩
      · rintro ⟨hapi, hname⟩
        cases api with
        | vulkan => rw [List.append_cancel_left (hvulkan.symm.trans hname)]
        | openCl =>
            have hhead : some 'v' = some 'o' := congrArg List.head? (hvulkan.symm.trans hname)
            exact absurd hhead (by decide)
        | unspecified => exact absurd rfl hapi
  · next hvulkan =>
      simp only [Option.map_eq_some_iff, Text.after?_eq_some_iff, Prod.mk.injEq]
      constructor
      · rintro ⟨suffix, hname, rfl, rfl⟩
        exact ⟨nofun, hname⟩
      · rintro ⟨hapi, hname⟩
        cases api with
        | vulkan => exact absurd (hvulkan.symm.trans (Text.after?_eq_some_iff.2 hname)) nofun
        | openCl => exact ⟨suffix, hname, rfl, rfl⟩
        | unspecified => exact absurd rfl hapi

theorem namedBy_unique {component suffix other : List Char} {api found : ClientApi}
    (h : api.NamedBy component suffix) (hother : found.NamedBy component other) :
    api = found ∧ suffix = other := by
  rw [← apiOf?_eq_some_iff] at h hother
  rw [h] at hother
  cases hother
  exact ⟨rfl, rfl⟩

/-- A component names no client interface. -/
def NamesNoApi (component : List Char) : Prop :=
  ∀ api suffix, ¬ ClientApi.NamedBy api component suffix

theorem namesNoApi_or (component : List Char) :
    NamesNoApi component ∨ ∃ api suffix, ClientApi.NamedBy api component suffix := by
  by_cases hnone : NamesNoApi component
  · exact Or.inl hnone
  · simp only [NamesNoApi, not_forall, not_not] at hnone
    exact Or.inr hnone

theorem apiOf?_eq_none_iff {component : List Char} :
    apiOf? component = none ↔ NamesNoApi component := by
  simp only [Option.eq_none_iff_forall_ne_some, NamesNoApi, ← apiOf?_eq_some_iff, Prod.forall,
    ne_eq]

section

variable {triple : String} {api found : ClientApi} {version latest : Option Version}
  {component suffix : List Char} {rest : List (List Char)}

/-- A component that names no client interface is passed over. -/
theorem readApi_cons_of_none (h : NamesNoApi component) :
    readApi triple api version (component :: rest) = readApi triple api version rest := by
  rw [readApi, apiOf?_eq_none_iff.2 h]

/-- A component that names a client interface has to name the one that was named before, if there is
one, and its version counts from then on, if it has one. -/
theorem readApi_cons_of_namedBy (h : found.NamedBy component suffix)
    {r : ClientApi × Option Version} :
    readApi triple api version (component :: rest) = .ok r ↔
      (api = .unspecified ∨ api = found) ∧
        ∃ own, VersionSuffix suffix own ∧ readApi triple found (own.or version) rest = .ok r := by
  rw [readApi, apiOf?_eq_some_iff.2 h]
  dsimp only
  by_cases hother : api ≠ .unspecified ∧ api ≠ found
  · rw [if_pos hother]
    exact iff_of_false nofun fun hr => hr.1.elim hother.1 hother.2
  · rw [if_neg hother, except_bind_eq_ok_iff]
    simp only [versionSuffix_eq_ok_iff]
    exact ⟨fun hr => ⟨by tauto, hr⟩, And.right⟩

/-- Components name no other client interface than one, and nothing or a version stands behind its
name. -/
def NamesOnly (found : ClientApi) (components : List (List Char)) : Prop :=
  ∀ c ∈ components, ∀ api suffix, ClientApi.NamedBy api c suffix →
    api = found ∧ (suffix = [] ∨ ∃ v, Version.SpelledBy v suffix)

/-- If the components are accepted, they name no other client interface than the one that is read,
which is also the one that was named before. -/
theorem namesOnly_of_readApi (h : readApi triple api version rest = .ok (found, latest)) :
    (api = .unspecified ∨ api = found) ∧ NamesOnly found rest := by
  induction rest generalizing api version with
  | nil =>
      cases h
      exact ⟨Or.inr rfl, nofun⟩
  | cons c rest ih =>
      rw [NamesOnly, List.forall_mem_cons]
      rcases namesNoApi_or c with hnone | ⟨named, suffix, hnamed⟩
      · rw [readApi_cons_of_none hnone] at h
        exact ⟨(ih h).1, fun a suffix ha => absurd ha (hnone a suffix), (ih h).2⟩
      · rw [readApi_cons_of_namedBy hnamed] at h
        obtain ⟨hapi, own, hsuffix, hrest⟩ := h
        obtain ⟨hfound, hall⟩ := ih hrest
        have hfound := hfound.resolve_left hnamed.1
        refine ⟨hfound ▸ hapi, fun a other ha => ?_, hall⟩
        obtain ⟨rfl, rfl⟩ := namedBy_unique ha hnamed
        exact ⟨hfound, exists_versionSuffix_iff.1 ⟨own, hsuffix⟩⟩

/-- Components that name no other client interface than the one that was named before are
accepted. -/
theorem exists_readApi (triple : String) (hapi : api = .unspecified ∨ api = found)
    (h : NamesOnly found rest) : ∃ r, readApi triple api version rest = .ok r := by
  induction rest generalizing api version with
  | nil => exact ⟨_, rfl⟩
  | cons c rest ih =>
      rw [NamesOnly, List.forall_mem_cons] at h
      rcases namesNoApi_or c with hnone | ⟨named, suffix, hnamed⟩
      · rw [readApi_cons_of_none hnone]
        exact ih hapi h.2
      · obtain ⟨rfl, hsuffix⟩ := h.1 named suffix hnamed
        obtain ⟨own, hown⟩ := exists_versionSuffix_iff.2 hsuffix
        have hrest : ∃ r, readApi triple named (own.or version) rest = .ok r :=
          ih (Or.inr rfl) h.2
        obtain ⟨r, hr⟩ := hrest
        exact ⟨r, (readApi_cons_of_namedBy hnamed).2 ⟨hapi, own, hown, hr⟩⟩

/-- Where no component names a client interface, the one that was named before stays. -/
theorem eq_of_readApi_of_none (h : readApi triple api version rest = .ok (found, latest))
    (hnone : ∀ c ∈ rest, NamesNoApi c) : found = api := by
  induction rest with
  | nil =>
      cases h
      rfl
  | cons c rest ih =>
      rw [List.forall_mem_cons] at hnone
      rw [readApi_cons_of_none hnone.1] at h
      exact ih h hnone.2

/-- A component names a client interface and its version. -/
def Carries (component : List Char) (v : Version) : Prop :=
  ∃ api suffix, ClientApi.NamedBy api component suffix ∧ v.SpelledBy suffix

/-- The last component that has a version has this one. -/
def LatestVersion (components : List (List Char)) (v : Version) : Prop :=
  ∃ before c after, components = before ++ c :: after ∧ Carries c v ∧
    ∀ d ∈ after, ∀ w, ¬ Carries d w

theorem latestVersion_cons_iff {v : Version} :
    LatestVersion (component :: rest) v ↔
      Carries component v ∧ (∀ d ∈ rest, ∀ w, ¬ Carries d w) ∨ LatestVersion rest v := by
  constructor
  · rintro ⟨before, c, after, hcomponents, hc, hafter⟩
    cases before with
    | nil =>
        cases hcomponents
        exact Or.inl ⟨hc, hafter⟩
    | cons d before =>
        cases hcomponents
        exact Or.inr ⟨before, c, after, rfl, hc, hafter⟩
  · rintro (⟨hc, hafter⟩ | ⟨before, c, after, rfl, hc, hafter⟩)
    · exact ⟨[], component, rest, rfl, hc, hafter⟩
    · exact ⟨component :: before, c, after, rfl, hc, hafter⟩

/-- The version that is read is the one of the last component that has a version, or the one from
before. -/
theorem latest_of_readApi (h : readApi triple api version rest = .ok (found, latest)) :
    (∀ v, LatestVersion rest v → latest = some v) ∧
      ((∀ c ∈ rest, ∀ v, ¬ Carries c v) → latest = version) := by
  induction rest generalizing api version with
  | nil =>
      cases h
      refine ⟨?_, fun _ => rfl⟩
      rintro v ⟨before, c, after, hcomponents, -⟩
      simp at hcomponents
  | cons c rest ih =>
      simp only [latestVersion_cons_iff, List.forall_mem_cons]
      rcases namesNoApi_or c with hnone | ⟨named, suffix, hnamed⟩
      · rw [readApi_cons_of_none hnone] at h
        refine ⟨fun v hv => ?_, fun hcarries => (ih h).2 hcarries.2⟩
        rcases hv with ⟨⟨a, suffix, hnamed, -⟩, -⟩ | hv
        · exact absurd hnamed (hnone a suffix)
        · exact (ih h).1 v hv
      · rw [readApi_cons_of_namedBy hnamed] at h
        obtain ⟨-, own, hsuffix, hrest⟩ := h
        obtain ⟨hlatest, hversion⟩ := ih hrest
        refine ⟨fun v hv => ?_, fun hcarries => ?_⟩
        · rcases hv with ⟨⟨a, other, ha, hspelled⟩, hnext⟩ | hv
          · obtain ⟨rfl, rfl⟩ := namedBy_unique ha hnamed
            rw [hversion hnext, hsuffix.eq_some hspelled]
            rfl
          · exact hlatest v hv
        · rw [hversion hcarries.2]
          cases hsuffix with
          | absent => rfl
          | given hv => exact absurd ⟨named, suffix, hnamed, hv⟩ (hcarries.1 _)

/-- The version that counts, with a default for components without a version. -/
theorem getD_latest_of_readApi (default : Version)
    (h : readApi triple api none rest = .ok (found, latest)) :
    (∀ v, LatestVersion rest v → latest.getD default = v) ∧
      ((∀ c ∈ rest, ∀ v, ¬ Carries c v) → latest.getD default = default) := by
  obtain ⟨hlatest, hnone⟩ := latest_of_readApi h
  constructor
  · intro v hv
    rw [hlatest v hv, Option.getD_some]
  · intro hv
    rw [hnone hv, Option.getD_none]

/-- Some component names a client interface. -/
def NamedIn (api : ClientApi) (components : List (List Char)) : Prop :=
  ∃ c ∈ components, ∃ suffix, api.NamedBy c suffix

/-- Components name at most one client interface, and where one names it, nothing or a version
stands behind the name. -/
structure NamesOneApi (components : List (List Char)) : Prop where
  suffix_spelled : ∀ c ∈ components, ∀ api suffix, ClientApi.NamedBy api c suffix →
    suffix = [] ∨ ∃ v, Version.SpelledBy v suffix
  not_both : ¬ (NamedIn .vulkan components ∧ NamedIn .openCl components)

/-- The client interface that the components name, if they name one, is the only one. -/
theorem namesOneApi_iff : NamesOneApi rest ↔ ∃ found, NamesOnly found rest := by
  constructor
  · rintro ⟨hsuffix, hboth⟩
    by_cases hvulkan : NamedIn .vulkan rest
    · refine ⟨.vulkan, fun c hc api suffix hnamed => ⟨?_, hsuffix c hc api suffix hnamed⟩⟩
      cases api with
      | vulkan => rfl
      | openCl => exact absurd ⟨hvulkan, c, hc, suffix, hnamed⟩ hboth
      | unspecified => exact absurd rfl hnamed.1
    · refine ⟨.openCl, fun c hc api suffix hnamed => ⟨?_, hsuffix c hc api suffix hnamed⟩⟩
      cases api with
      | vulkan => exact absurd ⟨c, hc, suffix, hnamed⟩ hvulkan
      | openCl => rfl
      | unspecified => exact absurd rfl hnamed.1
  · rintro ⟨found, honly⟩
    refine ⟨fun c hc api suffix hnamed => (honly c hc api suffix hnamed).2, ?_⟩
    rintro ⟨⟨c, hc, suffix, hvulkan⟩, ⟨d, hd, other, hopenCl⟩⟩
    cases (honly c hc _ _ hvulkan).1.trans (honly d hd _ _ hopenCl).1.symm

theorem exists_readApi_iff (triple : String) :
    (∃ r, readApi triple .unspecified none rest = .ok r) ↔ NamesOneApi rest := by
  rw [namesOneApi_iff]
  constructor
  · rintro ⟨⟨found, latest⟩, h⟩
    exact ⟨found, (namesOnly_of_readApi h).2⟩
  · rintro ⟨found, honly⟩
    exact exists_readApi triple (Or.inl rfl) honly

/-- The client interface that is read is the one that a component names. -/
theorem eq_iff_namedIn (named : ClientApi) (hspecified : named ≠ .unspecified)
    (h : readApi triple .unspecified none rest = .ok (found, latest)) :
    found = named ↔ NamedIn named rest := by
  have honly := (namesOnly_of_readApi h).2
  constructor
  · rintro rfl
    by_contra hnot
    refine hspecified (eq_of_readApi_of_none h fun c hc a suffix hnamed => ?_)
    obtain ⟨rfl, -⟩ := honly c hc a suffix hnamed
    exact hnot ⟨c, hc, suffix, hnamed⟩
  · rintro ⟨c, hc, suffix, hnamed⟩
    exact (honly c hc named suffix hnamed).1.symm

end

end Target

end SpirvLegality
