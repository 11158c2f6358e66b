import SpirvLegality.Environment

/-!
# Which capabilities become available

Enabling drops no available capability and ends with every requested one available
(`mem_available_enable`). In the other direction, neither enabling nor synchronizing adds more than
a set of capabilities that contains the requested ones and every prerequisite of its members
(`grownBy_enableAll`, `grownBy_foldl_settle`). Synchronizing keeps whatever is flagged
(`foldl_settle_of_flagged`) and leaves no capability of the graph available without its flag
(`flagged_of_mem_synchronize`). Prerequisites are missing only where they were lost before
(`ConsistentUpTo.synchronize`), so a fresh environment has the prerequisites of what it has
(`Environment.closed_ofTarget`), and it has every flagged capability of the graph.
-/

namespace SpirvLegality

/-- A set of capabilities that contains the prerequisites of its members. -/
def PrerequisiteGraph.Closed (g : PrerequisiteGraph) (t : Capability → Prop) : Prop :=
  ∀ cap, t cap → ∀ p ∈ g.prerequisites cap, t p

namespace Availability

variable {g : PrerequisiteGraph}

/-- What is available stays available while others are enabled. -/
theorem mem_available_enableAll_of_mem {s : Availability} {work : List Capability}
    {cap : Capability} (h : cap ∈ s.available) : cap ∈ (enableAll g s work).available := by
  fun_induction enableAll g s work with
  | case1 s => exact h
  | case2 s first rest hfirst ih => exact ih h
  | case3 s first rest hfirst ih => exact ih (EnumSet.mem_insert.2 (Or.inr h))

/-- Whatever is to be enabled ends up available. -/
theorem mem_available_enableAll {s : Availability} {work : List Capability} {cap : Capability}
    (h : cap ∈ work) : cap ∈ (enableAll g s work).available := by
  fun_induction enableAll g s work with
  | case1 s => cases h
  | case2 s first rest hfirst ih =>
      rcases List.mem_cons.1 h with rfl | h
      · exact mem_available_enableAll_of_mem hfirst
      · exact ih h
  | case3 s first rest hfirst ih =>
      rcases List.mem_cons.1 h with rfl | h
      · exact mem_available_enableAll_of_mem (EnumSet.mem_insert.2 (Or.inl rfl))
      · exact ih (List.mem_append_right _ h)

/-- A capability is available after it was enabled. -/
theorem mem_available_enable {s : Availability} {cap : Capability} :
    cap ∈ (s.enable g cap).available :=
  mem_available_enableAll (List.mem_singleton.2 rfl)

/-- Beyond what the one state has, the other flags and makes available only members of a set. -/
structure GrownBy (t : Capability → Prop) (s u : Availability) : Prop where
  flagged : ∀ cap ∈ u.flagged, cap ∈ s.flagged ∨ t cap
  available : ∀ cap ∈ u.available, cap ∈ s.available ∨ t cap

theorem GrownBy.refl (t : Capability → Prop) (s : Availability) : s.GrownBy t s :=
  ⟨fun _ h => Or.inl h, fun _ h => Or.inl h⟩

theorem GrownBy.trans {t : Capability → Prop} {s u v : Availability} (h : s.GrownBy t u)
    (h' : u.GrownBy t v) : s.GrownBy t v where
  flagged cap hcap := (h'.flagged cap hcap).elim (h.flagged cap) Or.inr
  available cap hcap := (h'.available cap hcap).elim (h.available cap) Or.inr

/-- Enabling members of a closed set adds only members of the set. -/
theorem grownBy_enableAll {t : Capability → Prop} (hclosed : g.Closed t) {s : Availability}
    {work : List Capability} (hwork : ∀ cap ∈ work, t cap) :
    s.GrownBy t (enableAll g s work) := by
  have hinsert : ∀ (u : EnumSet Capability) {first : Capability}, t first →
      ∀ cap ∈ u.insert first, cap ∈ u ∨ t cap := by
    intro u first hfirst cap hcap
    rcases EnumSet.mem_insert.1 hcap with rfl | hcap
    · exact Or.inr hfirst
    · exact Or.inl hcap
  fun_induction enableAll g s work with
  | case1 s => exact .refl t s
  | case2 s first rest hfirst ih =>
      have hmember : t first := hwork first (by simp)
      have hraise : s.GrownBy t (s.raise first) :=
        ⟨hinsert _ hmember, fun _ h => Or.inl h⟩
      exact hraise.trans (ih fun cap hcap => hwork cap (by simp [hcap]))
  | case3 s first rest hfirst ih =>
      -- The prerequisites of a member join the work, and the set contains them.
      have hmember : t first := hwork first (by simp)
      refine GrownBy.trans ⟨hinsert _ hmember, hinsert _ hmember⟩ (ih fun cap hcap => ?_)
      rcases List.mem_append.1 hcap with hcap | hcap
      · exact hclosed first hmember cap hcap
      · exact hwork cap (by simp [hcap])

/-- What is flagged and what is available in the one is so in the other. -/
structure Within (s t : Availability) : Prop where
  flagged : ∀ cap ∈ s.flagged, cap ∈ t.flagged
  available : ∀ cap ∈ s.available, cap ∈ t.available

/-- Enabling drops neither flags nor available capabilities. -/
theorem within_enableAll (s : Availability) (work : List Capability) :
    s.Within (enableAll g s work) := by
  refine ⟨fun cap hcap => ?_, fun cap hcap => mem_available_enableAll_of_mem hcap⟩
  fun_induction enableAll g s work with
  | case1 s => exact hcap
  | case2 s first rest hfirst ih => exact ih (EnumSet.mem_insert.2 (Or.inr hcap))
  | case3 s first rest hfirst ih => exact ih (EnumSet.mem_insert.2 (Or.inr hcap))

/-! ## Synchronizing -/

/-- Bringing a capability in line with its flag leaves a flagged capability flagged, and available
if it was so or is the one. -/
theorem settle_of_flagged {s : Availability} (cap : Capability) {other : Capability}
    (h : other ∈ s.flagged) : other ∈ (s.settle g cap).flagged ∧
      (other ∈ s.available ∨ other = cap → other ∈ (s.settle g cap).available) := by
  unfold Availability.settle
  split
  · split
    · next havailable => exact ⟨h, fun hother => hother.elim id fun heq => heq ▸ havailable⟩
    · have hwithin := within_enableAll (g := g) s [cap]
      refine ⟨hwithin.flagged other h, fun hother => ?_⟩
      rcases hother with hother | rfl
      · exact hwithin.available other hother
      · exact mem_available_enable
  · next hflagged =>
      have hne : other ≠ cap := fun heq => hflagged (heq ▸ h)
      split
      · exact ⟨h, fun hother => EnumSet.mem_erase.2 ⟨hne, hother.resolve_right hne⟩⟩
      · exact ⟨h, fun hother => hother.resolve_right hne⟩

/-- Bringing some capabilities in line with their flags leaves a flagged capability flagged, and
available if it was so or is one of them. -/
theorem foldl_settle_of_flagged {s : Availability} (caps : List Capability) {cap : Capability}
    (h : cap ∈ s.flagged) : cap ∈ (caps.foldl (Availability.settle g) s).flagged ∧
      (cap ∈ s.available ∨ cap ∈ caps →
        cap ∈ (caps.foldl (Availability.settle g) s).available) := by
  induction caps generalizing s with
  | nil => exact ⟨h, fun hcap => hcap.resolve_right List.not_mem_nil⟩
  | cons first rest ih =>
      obtain ⟨hflagged, havailable⟩ := settle_of_flagged (g := g) first h
      refine ⟨(ih hflagged).1, fun hcap => (ih hflagged).2 ?_⟩
      rw [List.mem_cons, ← or_assoc] at hcap
      exact hcap.imp_left havailable

/-- Bringing a capability in line with its flag adds only members of a closed set, if the set
contains the capability where it has to be enabled. -/
theorem grownBy_settle {t : Capability → Prop} (hclosed : g.Closed t) {s : Availability}
    {cap : Capability} (hcap : cap ∈ s.flagged → cap ∉ s.available → t cap) :
    s.GrownBy t (s.settle g cap) := by
  unfold Availability.settle
  split
  · next hflagged =>
      split
      · exact .refl t s
      · next havailable =>
          exact grownBy_enableAll hclosed (by simpa using hcap hflagged havailable)
  · split
    · exact ⟨fun _ h => Or.inl h, fun _ h => Or.inl (EnumSet.mem_erase.1 h).2⟩
    · exact .refl t s

/-- Bringing some capabilities in line with their flags adds only members of a closed set that
contains those of them that are flagged without being available. -/
theorem grownBy_foldl_settle {t : Capability → Prop} (hclosed : g.Closed t) {s : Availability}
    {caps : List Capability}
    (hcaps : ∀ cap ∈ caps, cap ∈ s.flagged → cap ∉ s.available → t cap) :
    s.GrownBy t (caps.foldl (Availability.settle g) s) := by
  induction caps generalizing s with
  | nil => exact .refl t s
  | cons first rest ih =>
      have hfirst : s.GrownBy t (s.settle g first) := grownBy_settle hclosed (hcaps first (by simp))
      refine hfirst.trans (ih fun cap hcap hflagged havailable => ?_)
      rcases hfirst.flagged cap hflagged with hflagged | hmember
      · -- A flagged capability is not removed, so this one was not available before either.
        exact hcaps cap (by simp [hcap]) hflagged fun h =>
          havailable ((settle_of_flagged first hflagged).2 (Or.inl h))
      · exact hmember

/-- All flagged and all available capabilities belong to a set. -/
structure Bounded (t : Capability → Prop) (s : Availability) : Prop where
  flagged : ∀ cap ∈ s.flagged, t cap
  available : ∀ cap ∈ s.available, t cap

/-- Bringing all capabilities in line with their flags stays within a closed set. -/
theorem Bounded.synchronize {t : Capability → Prop} (hclosed : g.Closed t) {s : Availability}
    (hs : s.Bounded t) : (s.synchronize g).Bounded t := by
  have hgrown : s.GrownBy t (s.synchronize g) :=
    grownBy_foldl_settle hclosed fun cap _ hflagged _ => hs.flagged cap hflagged
  exact ⟨fun cap hcap => (hgrown.flagged cap hcap).elim (hs.flagged cap) id,
    fun cap hcap => (hgrown.available cap hcap).elim (hs.available cap) id⟩

/-! ## Consistent states -/

/-- The available capabilities are flagged, and their prerequisites are available. -/
structure Consistent (g : PrerequisiteGraph) (s : Availability) : Prop where
  flagged : ∀ cap ∈ s.available, cap ∈ s.flagged
  closed : g.Closed (· ∈ s.available)

/-- The available capabilities are flagged, and their prerequisites are available, apart from those
that were lost: a lost capability may stand without its flag, and others may stand without it. -/
structure ConsistentUpTo (g : PrerequisiteGraph) (lost : Capability → Prop) (s : Availability) :
    Prop where
  flagged : ∀ cap ∈ s.available, cap ∈ s.flagged ∨ lost cap
  closed : ∀ cap ∈ s.available, ∀ p ∈ g.prerequisites cap, p ∈ s.available ∨ lost p

variable {lost : Capability → Prop}

theorem Consistent.upTo {s : Availability} (h : s.Consistent g) (lost : Capability → Prop) :
    s.ConsistentUpTo g lost :=
  ⟨fun cap hcap => Or.inl (h.flagged cap hcap),
    fun cap hcap p hp => Or.inl (h.closed cap hcap p hp)⟩

theorem ConsistentUpTo.consistent {s : Availability} (h : s.ConsistentUpTo g fun _ => False) :
    s.Consistent g :=
  ⟨fun cap hcap => (h.flagged cap hcap).resolve_right id,
    fun cap hcap p hp => (h.closed cap hcap p hp).resolve_right id⟩

theorem ConsistentUpTo.mono {lost' : Capability → Prop} {s : Availability}
    (h : s.ConsistentUpTo g lost) (hlost : ∀ cap, lost cap → lost' cap) :
    s.ConsistentUpTo g lost' :=
  ⟨fun cap hcap => (h.flagged cap hcap).imp_right (hlost cap),
    fun cap hcap p hp => (h.closed cap hcap p hp).imp_right (hlost p)⟩

/-- Enabling flags whatever it makes available. -/
theorem flagged_enableAll {s : Availability} (work : List Capability)
    (h : ∀ cap ∈ s.available, cap ∈ s.flagged ∨ lost cap) :
    ∀ cap ∈ (enableAll g s work).available, cap ∈ (enableAll g s work).flagged ∨ lost cap := by
  fun_induction enableAll g s work with
  | case1 s => exact h
  | case2 s first rest hfirst ih =>
      exact ih fun cap hcap => (h cap hcap).imp_left fun hflagged =>
        EnumSet.mem_insert.2 (Or.inr hflagged)
  | case3 s first rest hfirst ih =>
      refine ih fun cap hcap => ?_
      rw [EnumSet.mem_insert] at hcap ⊢
      rw [or_assoc]
      exact hcap.imp_right (h cap)

/-- Enabling ends closed when the missing prerequisites of what is available are still to be
enabled, apart from those that were lost. -/
theorem closed_enableAll {s : Availability} {work : List Capability}
    (h : ∀ cap ∈ s.available, ∀ p ∈ g.prerequisites cap,
      p ∈ s.available ∨ p ∈ work ∨ lost p) :
    ∀ cap ∈ (enableAll g s work).available, ∀ p ∈ g.prerequisites cap,
      p ∈ (enableAll g s work).available ∨ lost p := by
  fun_induction enableAll g s work with
  | case1 s =>
      intro cap hcap p hp
      exact (h cap hcap p hp).imp_right fun hp => hp.resolve_left List.not_mem_nil
  | case2 s first rest hfirst ih =>
      refine ih fun cap hcap p hp => ?_
      rcases h cap hcap p hp with hp | hp | hp
      · exact Or.inl hp
      · rcases List.mem_cons.1 hp with rfl | hp
        · exact Or.inl hfirst
        · exact Or.inr (Or.inl hp)
      · exact Or.inr (Or.inr hp)
  | case3 s first rest hfirst ih =>
      refine ih fun cap hcap p hp => ?_
      rw [EnumSet.mem_insert, List.mem_append]
      rcases EnumSet.mem_insert.1 hcap with rfl | hcap
      · exact Or.inr (Or.inl (Or.inl hp))
      · rcases h cap hcap p hp with hp | hp | hp
        · exact Or.inl (Or.inr hp)
        · rcases List.mem_cons.1 hp with rfl | hp
          · exact Or.inl (Or.inl rfl)
          · exact Or.inr (Or.inl (Or.inr hp))
        · exact Or.inr (Or.inr hp)

theorem ConsistentUpTo.enable {s : Availability} (h : s.ConsistentUpTo g lost)
    (cap : Capability) : (s.enable g cap).ConsistentUpTo g lost :=
  ⟨flagged_enableAll _ h.flagged,
    closed_enableAll fun c hc p hp => (h.closed c hc p hp).imp_right Or.inr⟩

/-- Bringing a capability in line with its flag ends with the capability flagged where it is
available, and takes no flag from the others. -/
theorem flagged_settle {s : Availability} (h : ∀ cap ∈ s.available, cap ∈ s.flagged ∨ lost cap)
    (cap : Capability) : ∀ other ∈ (s.settle g cap).available,
      other ∈ (s.settle g cap).flagged ∨ lost other ∧ other ≠ cap := by
  intro other hother
  by_cases hflagged : cap ∈ s.flagged
  · by_cases heq : other = cap
    · exact Or.inl (settle_of_flagged cap (heq ▸ hflagged)).1
    · have hafter : other ∈ (s.settle g cap).flagged ∨ lost other := by
        rw [Availability.settle, if_pos hflagged] at hother ⊢
        split at hother
        · rw [if_pos ‹_›]
          exact h other hother
        · rw [if_neg ‹_›]
          exact flagged_enableAll _ h other hother
      exact hafter.imp_right fun hlost => ⟨hlost, heq⟩
  · rw [Availability.settle, if_neg hflagged] at hother ⊢
    split at hother
    · rw [if_pos ‹_›]
      obtain ⟨hne, hother⟩ := EnumSet.mem_erase.1 hother
      exact (h other hother).imp_right fun hlost => ⟨hlost, hne⟩
    · next havailable =>
        rw [if_neg havailable]
        exact (h other hother).imp_right fun hlost => ⟨hlost, fun heq => havailable (heq ▸ hother)⟩

/-- What is removed for want of a flag was lost before. -/
theorem ConsistentUpTo.settle {s : Availability} (h : s.ConsistentUpTo g lost)
    (cap : Capability) : (s.settle g cap).ConsistentUpTo g lost := by
  refine ⟨fun c hc => (flagged_settle h.flagged cap c hc).imp_right And.left, ?_⟩
  unfold Availability.settle
  split
  · split
    · exact h.closed
    · exact (h.enable cap).closed
  · next hflagged =>
      split
      · next havailable =>
          have hlost : lost cap := (h.flagged cap havailable).resolve_left hflagged
          intro c hc p hp
          by_cases hremoved : p = cap
          · exact Or.inr (hremoved ▸ hlost)
          · exact (h.closed c (EnumSet.mem_erase.1 hc).2 p hp).imp_left fun hp =>
              EnumSet.mem_erase.2 ⟨hremoved, hp⟩
      · exact h.closed

theorem ConsistentUpTo.synchronize {s : Availability} (h : s.ConsistentUpTo g lost) :
    (s.synchronize g).ConsistentUpTo g lost :=
  List.foldlRecOn g.capabilities (Availability.settle g) h fun _ h cap _ => h.settle cap

/-- Bringing some capabilities in line with their flags leaves none of them available without its
flag. -/
theorem flagged_foldl_settle {s : Availability} (caps : List Capability)
    (h : ∀ cap ∈ s.available, cap ∈ s.flagged ∨ lost cap) :
    ∀ cap ∈ (caps.foldl (Availability.settle g) s).available,
      cap ∈ (caps.foldl (Availability.settle g) s).flagged ∨ lost cap ∧ cap ∉ caps := by
  induction caps generalizing s lost with
  | nil =>
      intro cap hcap
      exact (h cap hcap).imp_right fun hlost => ⟨hlost, List.not_mem_nil⟩
  | cons first rest ih =>
      intro cap hcap
      refine (ih (flagged_settle h first) cap hcap).imp_right fun hlost => ⟨hlost.1.1, ?_⟩
      rw [List.mem_cons, not_or]
      exact ⟨hlost.1.2, hlost.2⟩

/-- After synchronization the available capabilities of the graph are flagged. -/
theorem flagged_of_mem_synchronize {s : Availability} {cap : Capability}
    (hcap : cap ∈ g.capabilities) (h : cap ∈ (s.synchronize g).available) :
    cap ∈ (s.synchronize g).flagged := by
  have hany : ∀ c ∈ s.available, c ∈ s.flagged ∨ True := fun _ _ => Or.inr trivial
  exact (flagged_foldl_settle g.capabilities hany cap h).resolve_right fun hlost => hlost.2 hcap

/-- Where all that is flagged is available, synchronizing takes away what is not flagged. -/
theorem mem_available_synchronize_iff {s : Availability}
    (h : ∀ cap ∈ s.flagged, cap ∈ s.available) {cap : Capability} (hcap : cap ∈ g.capabilities) :
    cap ∈ (s.synchronize g).available ↔ cap ∈ s.available ∧ cap ∈ s.flagged := by
  have hgrown : s.GrownBy (fun _ => False) (s.synchronize g) :=
    grownBy_foldl_settle (fun _ h => h.elim) fun c _ hflagged hmissing =>
      hmissing (h c hflagged)
  constructor
  · intro hafter
    have hflagged := flagged_of_mem_synchronize hcap hafter
    exact ⟨(hgrown.available cap hafter).resolve_right id,
      (hgrown.flagged cap hflagged).resolve_right id⟩
  · rintro ⟨havailable, hflagged⟩
    exact (foldl_settle_of_flagged g.capabilities hflagged).2 (Or.inl havailable)

/-- Flags without available capabilities are consistent. -/
theorem consistent_ofFlags (flags : EnumSet Capability) : (ofFlags flags).Consistent g :=
  ⟨fun cap hcap => absurd hcap (EnumSet.not_mem_empty cap),
    fun cap hcap => absurd hcap (EnumSet.not_mem_empty cap)⟩

end Availability

/-- The capabilities of a fresh environment lie within any closed set that contains the flags of
its target. -/
theorem Environment.mem_of_hasCapability_ofTarget {target : Target} {g : PrerequisiteGraph}
    {t : Capability → Prop} (hclosed : g.Closed t) (hflags : ∀ cap ∈ target.flags, t cap)
    {cap : Capability} (h : (ofTarget target g).hasCapability cap = true) : t cap := by
  have hs : (Availability.ofFlags target.flags).Bounded t :=
    ⟨hflags, fun c hc => absurd hc (EnumSet.not_mem_empty c)⟩
  exact (hs.synchronize hclosed).available cap h

namespace Environment

variable {target : Target} {g : PrerequisiteGraph}

theorem consistent_ofTarget (target : Target) (g : PrerequisiteGraph) :
    (ofTarget target g).state.Consistent g :=
  ((Availability.consistent_ofFlags target.flags).upTo _).synchronize.consistent

/-- A fresh environment has the prerequisites of what it has. -/
theorem closed_ofTarget (target : Target) (g : PrerequisiteGraph) :
    g.Closed fun cap => (ofTarget target g).hasCapability cap = true :=
  (consistent_ofTarget target g).closed

/-- A fresh environment has the capabilities of the graph that its target asks for. -/
theorem hasCapability_of_mem_flags {cap : Capability} (hcap : cap ∈ g.capabilities)
    (hflag : cap ∈ target.flags) : (ofTarget target g).hasCapability cap = true :=
  (Availability.foldl_settle_of_flagged g.capabilities hflag).2 (Or.inr hcap)

/-- Where every capability has a row, a fresh environment has just those that are flagged. -/
theorem mem_flagged_ofTarget_iff (htable : ∀ cap, cap ∈ g.capabilities) {cap : Capability} :
    cap ∈ (ofTarget target g).state.flagged ↔ (ofTarget target g).hasCapability cap = true := by
  have hgrown : (Availability.ofFlags target.flags).GrownBy
      (fun c => (ofTarget target g).hasCapability c = true) (ofTarget target g).state :=
    Availability.grownBy_foldl_settle (closed_ofTarget target g)
      fun c _ hflag _ => hasCapability_of_mem_flags (htable c) hflag
  constructor
  · intro hcap
    exact (hgrown.flagged cap hcap).elim (hasCapability_of_mem_flags (htable cap)) id
  · exact (consistent_ofTarget target g).flagged cap

/-- A target whose flags contain those of another has the capabilities of the other. -/
theorem hasCapability_ofTarget_mono {other : Target} (hflags : ∀ cap ∈ target.flags,
    cap ∈ other.flags) (htable : ∀ cap ∈ target.flags, cap ∈ g.capabilities) {cap : Capability}
    (h : (ofTarget target g).hasCapability cap = true) :
    (ofTarget other g).hasCapability cap = true :=
  mem_of_hasCapability_ofTarget (closed_ofTarget other g)
    (fun c hc => hasCapability_of_mem_flags (htable c hc) (hflags c hc)) h

/-- Where the flags of a target contain the prerequisites of their members, a fresh environment has
just these. -/
theorem hasCapability_ofTarget_iff (hclosed : g.Closed (· ∈ target.flags))
    (htable : ∀ cap ∈ target.flags, cap ∈ g.capabilities) {cap : Capability} :
    (ofTarget target g).hasCapability cap = true ↔ cap ∈ target.flags :=
  ⟨mem_of_hasCapability_ofTarget hclosed fun _ h => h,
    fun h => hasCapability_of_mem_flags (htable cap h) h⟩

end Environment

/-- Every capability has a row in the standard graph. -/
theorem PrerequisiteGraph.mem_capabilities_standard (cap : Capability) :
    cap ∈ standard.capabilities := by
  simpa [standard, capabilities, Capability.table, Capability.row, Function.comp_def]
    using Capability.mem_values cap

end SpirvLegality
