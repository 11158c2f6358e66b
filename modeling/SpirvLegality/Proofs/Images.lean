import SpirvLegality.Proofs.Validation

/-!
# What image types require

An image type requires capabilities only, for its format, its shape and the access to it
(`Instruction.imageRequirements_eq_ok_iff`). An image that can be used in more ways requires more: a
capability for images presupposes the one for sampled images of the same shape, and reading and
writing presupposes the basic capability. So the capabilities of a sampled image, with all that they
need, are among those of the image without a sampler, and those of any image among those of the
image that is read and written (`Instruction.image_requirements_grow`).
-/

namespace SpirvLegality

/-! ## Covering capabilities -/

namespace PrerequisiteGraph

variable {g : PrerequisiteGraph}

/-- Whether each of some capabilities is one of others, or is needed by one of them. -/
def Covers (g : PrerequisiteGraph) (others caps : List Capability) : Prop :=
  ∀ cap ∈ caps, ∃ other ∈ others, cap = other ∨ g.Needs other cap

theorem Covers.refl (g : PrerequisiteGraph) (caps : List Capability) : g.Covers caps caps :=
  fun cap hcap => ⟨cap, hcap, Or.inl rfl⟩

theorem Covers.append {others caps others' caps' : List Capability} (h : g.Covers others caps)
    (h' : g.Covers others' caps') : g.Covers (others ++ others') (caps ++ caps') := by
  intro cap hcap
  rcases List.mem_append.1 hcap with hcap | hcap
  · obtain ⟨other, hother, hneeded⟩ := h cap hcap
    exact ⟨other, List.mem_append_left _ hother, hneeded⟩
  · obtain ⟨other, hother, hneeded⟩ := h' cap hcap
    exact ⟨other, List.mem_append_right _ hother, hneeded⟩

/-- Capabilities that are presupposed directly are covered. -/
theorem Covers.of_prerequisites {others caps : List Capability}
    (h : ∀ cap ∈ caps, ∃ other ∈ others, cap = other ∨ cap ∈ g.prerequisites other) :
    g.Covers others caps := by
  intro cap hcap
  obtain ⟨other, hother, hneeded⟩ := h cap hcap
  exact ⟨other, hother, hneeded.imp_right .single⟩

end PrerequisiteGraph

open PrerequisiteGraph (Covers)

namespace Requirement

variable {g : PrerequisiteGraph}

/-- The expansion of some capabilities asks for nothing but what they need. -/
theorem exists_needed_of_mem_expandAll {caps : List Capability} {all : List Requirement}
    (h : expandAll g (caps.map .capability) = .ok all) {req : Requirement} (hreq : req ∈ all) :
    ∃ cap ∈ caps, ∃ needed, (needed = cap ∨ g.Needs cap needed) ∧ req = .capability needed := by
  induction caps generalizing all with
  | nil =>
      cases h
      cases hreq
  | cons cap rest ih =>
      obtain ⟨first, others, hexpand, hothers, rfl⟩ := expandAll_cons_eq_ok_iff.1 h
      rcases List.mem_append.1 hreq with hfirst | hrest
      · rcases expand_cases hexpand with ⟨_, caps, hcap, horder, rfl⟩ | ⟨hno, -⟩
        · cases hcap
          obtain ⟨needed, hneeded, rfl⟩ := List.mem_map.1 hfirst
          have hneeded' := (PrerequisiteGraph.mem_order_iff horder).1 hneeded
          exact ⟨cap, List.mem_cons_self, needed, hneeded', rfl⟩
        · exact absurd rfl (hno cap)
      · obtain ⟨root, hroot, hneeded⟩ := ih hothers hrest
        exact ⟨root, List.mem_cons_of_mem _ hroot, hneeded⟩

/-- Covered capabilities ask for nothing more when both are expanded. -/
theorem subset_expandAll_of_covers {others caps : List Capability} (h : g.Covers others caps)
    {all wider : List Requirement} (hall : expandAll g (caps.map .capability) = .ok all)
    (hwider : expandAll g (others.map .capability) = .ok wider) : all ⊆ wider := by
  intro req hreq
  obtain ⟨cap, hcap, needed, hneeded, rfl⟩ := exists_needed_of_mem_expandAll hall hreq
  obtain ⟨other, hother, hcovered⟩ := h cap hcap
  refine mem_expandAll_of_needs hwider (List.mem_map_of_mem hother) ?_
  -- What is needed for a covered capability is needed for the one that covers it.
  rcases hcovered with rfl | hcovered
  · exact hneeded
  · rcases hneeded with rfl | hneeds
    · exact Or.inr hcovered
    · exact Or.inr (hcovered.trans hneeds)

end Requirement

/-! ## Replacing an operand -/

namespace Instruction

/-- An instruction with the operand at a position replaced, or with one operand more behind the
last. -/
def withOperand (inst : Instruction) (position : Nat) (operand : Operand) : Instruction :=
  { inst with
    operands := inst.operands.take position ++ operand :: inst.operands.drop (position + 1) }

variable {inst : Instruction}

theorem getElem?_withOperand {position : Nat} (h : position ≤ inst.operands.length)
    (operand : Operand) (index : Nat) : (inst.withOperand position operand).operands[index]? =
      if index = position then some operand else inst.operands[index]? := by
  have hlength : (inst.operands.take position).length = position := List.length_take_of_le h
  rw [withOperand]
  rcases Nat.lt_trichotomy index position with hindex | rfl | hindex
  · rw [List.getElem?_append_left (hindex.trans_eq hlength.symm), List.getElem?_take_of_lt hindex,
      if_neg (Nat.ne_of_lt hindex)]
  · rw [List.getElem?_append_right (Nat.le_of_eq hlength), hlength, Nat.sub_self, if_pos rfl]
    rfl
  · obtain ⟨behind, rfl⟩ := Nat.exists_eq_add_of_lt hindex
    have hbehind : position + behind + 1 - position = behind + 1 := by omega
    rw [List.getElem?_append_right (by omega), hlength, hbehind, List.getElem?_cons_succ,
      List.getElem?_drop, if_neg (Nat.ne_of_gt hindex), Nat.add_right_comm]

theorem length_le_withOperand {position : Nat} (h : position ≤ inst.operands.length)
    (operand : Operand) :
    inst.operands.length ≤ (inst.withOperand position operand).operands.length := by
  simp only [withOperand, List.length_append, List.length_take, List.length_cons, List.length_drop]
  omega

theorem imm?_withOperand_self {position : Nat} (h : position ≤ inst.operands.length)
    (word : UInt32) : (inst.withOperand position (.imm word)).imm? position = some word := by
  rw [imm?, getElem?_withOperand h, if_pos rfl]

theorem imm?_withOperand_of_ne {position index : Nat} (h : position ≤ inst.operands.length)
    (operand : Operand) (hindex : index ≠ position) :
    (inst.withOperand position operand).imm? index = inst.imm? index := by
  rw [imm?, imm?, getElem?_withOperand h, if_neg hindex]

/-! ## Image types -/

/-- The capabilities that the format of an image needs. -/
def formatCapabilities (format : UInt32) : List Capability :=
  ((Family.imageFormat.table.get? format).map Enumerant.capabilities).getD []

/-- A format needs its capability in every version. -/
theorem requirements_imageFormat (format : UInt32) (env : Environment) :
    Family.imageFormat.requirements format env =
      .ok ((formatCapabilities format).map .capability) := by
  cases hrow : Family.imageFormat.table.get? format with
  | none => simp [Family.requirements, formatCapabilities, hrow]
  | some row =>
      have hsingle : ∀ row ∈ Family.imageFormat.table.rows.toList,
          Family.choice row = row.capabilities.map .capability := by
        decide +kernel
      have hmin := Family.minVersion_eq_unspecified hrow fun h => by cases h
      have hmax : row.maxVersion.isUnspecified = true := by
        rw [Family.maxVersion_eq_unspecified hrow]
        rfl
      have hgate : env.gate row = .ok none := by
        simp [Environment.gate, hmin, Version.atLeast_unspecified, hmax]
      refine (Family.requirements_eq_ok_iff hrow).2 ⟨none, hgate, ?_⟩
      rw [hsingle row (Array.mem_toList_iff.2 (EnumTable.mem_of_get? hrow).1)]
      simp [formatCapabilities, hrow]

variable {env : Environment} {reqs : List Requirement}

/-- An image type with its operands requires the capabilities for its format, its shape and the
access to it. -/
theorem imageRequirements_eq_ok_iff : inst.imageRequirements env = .ok reqs ↔
    8 ≤ inst.operands.length ∧ ∃ format arrayed multisampled sampled dimension,
      inst.imm? 7 = some format ∧ inst.imm? 4 = some arrayed ∧ inst.imm? 5 = some multisampled ∧
        inst.imm? 6 = some sampled ∧ inst.imm? 2 = some dimension ∧
          reqs = (formatCapabilities format ++
            (imageCapabilities (.ofWord dimension) (arrayed == 1) (multisampled == 1)
              (sampled == withoutSampler) ++ inst.accessCapabilities env)).map .capability := by
  rw [imageRequirements]
  split
  · exact iff_of_false (fun h => by cases h) fun h => absurd h.1 (Nat.not_le.2 ‹_›)
  · simp only [except_bind_eq_ok_iff, requirements_imageFormat, word_eq_ok_iff]
    constructor
    · rintro ⟨format, hformat, ofFormat, hofFormat, arrayed, harrayed, multisampled, hmultisampled,
        sampled, hsampled, dimension, hdimension, h⟩
      cases hofFormat
      cases h
      refine ⟨Nat.le_of_not_lt ‹_›, format, arrayed, multisampled, sampled, dimension, hformat,
        harrayed, hmultisampled, hsampled, hdimension, ?_⟩
      simp only [List.map_append]
    · rintro ⟨-, format, arrayed, multisampled, sampled, dimension, hformat, harrayed,
        hmultisampled, hsampled, hdimension, rfl⟩
      refine ⟨format, hformat, _, rfl, arrayed, harrayed, multisampled, hmultisampled, sampled,
        hsampled, dimension, hdimension, ?_⟩
      simp only [List.map_append]
      rfl

/-- Whatever an image of a shape needs, the image of that shape without a sampler needs as well. -/
theorem covers_imageCapabilities (dimension : ImageDimension)
    (arrayed multisampled unsampled : Bool) :
    PrerequisiteGraph.standard.Covers (imageCapabilities dimension arrayed multisampled true)
      (imageCapabilities dimension arrayed multisampled unsampled) := by
  cases unsampled with
  | true => exact .refl _ _
  | false =>
      refine .of_prerequisites ?_
      cases dimension <;> cases arrayed <;> cases multisampled <;> decide +kernel

/-- Whatever the access to an image needs, reading and writing needs as well. -/
theorem covers_accessCapabilities (env : Environment) {wider : Instruction}
    (hwider : wider.imm? 8 = some readWriteAccess) (inst : Instruction) :
    PrerequisiteGraph.standard.Covers (wider.accessCapabilities env)
      (inst.accessCapabilities env) := by
  have hbasic : .imageBasic ∈ PrerequisiteGraph.standard.prerequisites .imageReadWrite := by
    decide +kernel
  rw [accessCapabilities, accessCapabilities, if_pos hwider]
  refine .of_prerequisites ?_
  cases env.target.isKernel with
  | false => simp
  | true => by_cases haccess : inst.imm? 8 = some readWriteAccess <;> simp [haccess, hbasic]

/-- An image type that is accepted is accepted without a sampler, and needs no less then. -/
theorem exists_imageRequirements_withoutSampler (h : inst.imageRequirements env = .ok reqs) :
    ∃ caps others, reqs = caps.map .capability ∧
      (inst.withOperand 6 (.imm withoutSampler)).imageRequirements env =
        .ok (others.map .capability) ∧
      PrerequisiteGraph.standard.Covers others caps := by
  obtain ⟨hlength, format, arrayed, multisampled, sampled, dimension, hformat, harrayed,
    hmultisampled, -, hdimension, rfl⟩ := imageRequirements_eq_ok_iff.1 h
  have hposition : 6 ≤ inst.operands.length := by omega
  have hkept {index : Nat} (hindex : index ≠ 6) :
      (inst.withOperand 6 (.imm withoutSampler)).imm? index = inst.imm? index :=
    imm?_withOperand_of_ne hposition _ hindex
  refine ⟨_, _, rfl, imageRequirements_eq_ok_iff.2
    ⟨hlength.trans (length_le_withOperand hposition _), format, arrayed, multisampled,
      withoutSampler, dimension, (hkept (by decide)).trans hformat,
      (hkept (by decide)).trans harrayed, (hkept (by decide)).trans hmultisampled,
      imm?_withOperand_self hposition _, (hkept (by decide)).trans hdimension, rfl⟩, ?_⟩
  -- The access stays as it is, and so does the shape, except that no sampler is used.
  rw [accessCapabilities, accessCapabilities, hkept (by decide), beq_self_eq_true]
  exact (Covers.refl _ _).append ((covers_imageCapabilities _ _ _ _).append (Covers.refl _ _))

/-- An image type that is accepted is accepted with read-write access, and needs no less then. -/
theorem exists_imageRequirements_readWriteAccess (h : inst.imageRequirements env = .ok reqs) :
    ∃ caps others, reqs = caps.map .capability ∧
      (inst.withOperand 8 (.imm readWriteAccess)).imageRequirements env =
        .ok (others.map .capability) ∧
      PrerequisiteGraph.standard.Covers others caps := by
  obtain ⟨hlength, format, arrayed, multisampled, sampled, dimension, hformat, harrayed,
    hmultisampled, hsampled, hdimension, rfl⟩ := imageRequirements_eq_ok_iff.1 h
  have hkept {index : Nat} (hindex : index ≠ 8) :
      (inst.withOperand 8 (.imm readWriteAccess)).imm? index = inst.imm? index :=
    imm?_withOperand_of_ne hlength _ hindex
  refine ⟨_, _, rfl, imageRequirements_eq_ok_iff.2
    ⟨hlength.trans (length_le_withOperand hlength _), format, arrayed, multisampled, sampled,
      dimension, (hkept (by decide)).trans hformat, (hkept (by decide)).trans harrayed,
      (hkept (by decide)).trans hmultisampled, (hkept (by decide)).trans hsampled,
      (hkept (by decide)).trans hdimension, rfl⟩, ?_⟩
  exact (Covers.refl _ _).append ((Covers.refl _ _).append
    (covers_accessCapabilities env (imm?_withOperand_self hlength _) inst))

theorem requirements_of_typeImage (inst : Instruction) (hopcode : inst.opcode = .typeImage)
    (env : Environment) (defs : Definitions) :
    inst.requirements env defs = inst.imageRequirements env := by
  rw [requirements, hopcode]
  rfl

/-- An instruction whose capabilities cover those of another one is expanded to no less. -/
theorem exists_expandedRequirements_of_covers {defs : Definitions} {wider : Instruction}
    {caps others : List Capability} {all : List Requirement}
    (horders : ∀ cap, ∃ caps, env.graph.order cap = .ok caps)
    (hcovers : env.graph.Covers others caps)
    (hwider : wider.requirements env defs = .ok (others.map .capability))
    (hall : Requirement.expandAll env.graph (caps.map .capability) = .ok all) :
    ∃ more, wider.expandedRequirements env defs = .ok more ∧ all ⊆ more := by
  obtain ⟨more, hmore⟩ := Requirement.exists_expandAll horders (others.map .capability)
  exact ⟨more, expandedRequirements_eq_ok_iff.2 ⟨_, hwider, hmore⟩,
    Requirement.subset_expandAll_of_covers hcovers hall hmore⟩

/-- An image type requires capabilities only. With all that they need, these are among those of the
image type without a sampler, and among those of the image type that is read and written. -/
theorem image_requirements_grow {env : Environment} (hgraph : env.graph = .standard)
    {inst : Instruction} (hopcode : inst.opcode = .typeImage) {defs : Definitions}
    {reqs : List Requirement} (h : inst.requirements env defs = .ok reqs) :
    (∀ req ∈ reqs, ∃ cap, req = .capability cap) ∧
    ∃ all, inst.expandedRequirements env defs = .ok all ∧
      (∃ unsampled, (inst.withOperand 6 (.imm withoutSampler)).expandedRequirements env defs =
        .ok unsampled ∧ all ⊆ unsampled) ∧
      ∃ written, (inst.withOperand 8 (.imm readWriteAccess)).expandedRequirements env defs =
        .ok written ∧ all ⊆ written := by
  have himage := (requirements_of_typeImage inst hopcode env defs).symm.trans h
  obtain ⟨caps, unsampled, rfl, hunsampled, hshape⟩ :=
    exists_imageRequirements_withoutSampler himage
  obtain ⟨caps', written, hcaps, hwritten, haccess⟩ :=
    exists_imageRequirements_readWriteAccess himage
  rw [← hgraph] at hshape haccess
  have horders : ∀ cap, ∃ caps, env.graph.order cap = .ok caps := by
    rw [hgraph]
    exact PrerequisiteGraph.exists_order_of_ofTable PrerequisiteGraph.ofTable_standard
  obtain ⟨all, hall⟩ := Requirement.exists_expandAll horders (caps.map .capability)
  refine ⟨fun req hreq => ?_, all, expandedRequirements_eq_ok_iff.2 ⟨_, h, hall⟩, ?_, ?_⟩
  · obtain ⟨cap, -, rfl⟩ := List.mem_map.1 hreq
    exact ⟨cap, rfl⟩
  · exact exists_expandedRequirements_of_covers horders hshape
      ((requirements_of_typeImage (inst.withOperand 6 _) hopcode env defs).trans hunsampled) hall
  · rw [hcaps] at hall
    exact exists_expandedRequirements_of_covers horders haccess
      ((requirements_of_typeImage (inst.withOperand 8 _) hopcode env defs).trans hwritten) hall

/-- The type of a sampled image with one dimension and four floating-point channels. -/
def sampledLine : Instruction :=
  .of .typeImage (some ⟨1⟩) [.id ⟨0⟩, .imm 0, .imm 0, .imm 0, .imm 0, .imm 1, .imm 1]

/-- For a kernel, a sampled image with one dimension can be sampled and read; without a sampler or
with read-write access it needs no less. -/
theorem image_requirements_grow_sampledLine :
    (Environment.ofTarget .standard).graph = .standard ∧ sampledLine.opcode = .typeImage ∧
      sampledLine.requirements (.ofTarget .standard) (fun _ => none) =
        .ok [.capability .shader, .capability .sampled1D, .capability .imageBasic] ∧
      ∃ all, sampledLine.expandedRequirements (.ofTarget .standard) (fun _ => none) = .ok all ∧
        (∃ unsampled, (sampledLine.withOperand 6 (.imm withoutSampler)).expandedRequirements
          (.ofTarget .standard) (fun _ => none) = .ok unsampled ∧ all ⊆ unsampled) ∧
        ∃ written, (sampledLine.withOperand 8 (.imm readWriteAccess)).expandedRequirements
          (.ofTarget .standard) (fun _ => none) = .ok written ∧ all ⊆ written := by
  have hreqs : sampledLine.requirements (.ofTarget .standard) (fun _ => none) =
      .ok [.capability .shader, .capability .sampled1D, .capability .imageBasic] :=
    show sampledLine.imageRequirements (.ofTarget .standard) = _ by decide +kernel
  obtain ⟨-, hgrow⟩ := image_requirements_grow rfl rfl hreqs
  exact ⟨rfl, rfl, hreqs, hgrow⟩

end Instruction

end SpirvLegality
