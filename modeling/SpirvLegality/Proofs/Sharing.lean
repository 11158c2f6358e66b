import SpirvLegality.Proofs.ValidatedGraph
import SpirvLegality.Proofs.Walking

/-!
# What orders share

The orders of the prerequisites of a capability overlap, and yet they are found in one pass in which
nothing is listed twice. What such a pass lists behind what was listed before is what a fresh one
would list, less what was listed before (`PrerequisiteGraph.visit_eq_foldl_appendNew`): nothing is
reordered, as whatever is listed stands behind all that it needs. So the order of a capability is
made up of the orders of its prerequisites (`PrerequisiteGraph.order_eq_eraseDups`).
-/

namespace SpirvLegality.PrerequisiteGraph

variable {g : PrerequisiteGraph}

/-- Visiting a first capability and others passes over the first one, if it is listed, or visits its
prerequisites and lists it, and then visits the others. -/
theorem visit_cons_eq_ok_iff {path : EnumSet Capability} {done rest result : List Capability}
    {cap : Capability} : g.visit path done (cap :: rest) = .ok result ↔ cap ∉ path ∧
      (cap ∈ done ∧ g.visit path done rest = .ok result ∨
        cap ∉ done ∧ ∃ visited,
          g.visit (path.insert cap) done (g.prerequisites cap) = .ok visited ∧
            g.visit path (visited ++ [cap]) rest = .ok result) := by
  rw [visit]
  by_cases hpath : cap ∈ path
  · simp [hpath]
  · by_cases hlisted : cap ∈ done
    · simp [hpath, hlisted]
    · cases g.visit (path.insert cap) done (g.prerequisites cap) <;> simp [hpath, hlisted]

/-- Visiting lists behind what was listed before. -/
theorem prefix_visit {path : EnumSet Capability} {done todo result : List Capability}
    (h : g.visit path done todo = .ok result) : done <+: result := by
  fun_induction visit g path done todo generalizing result with
  | case1 path done =>
      cases h
      exact List.prefix_refl done
  | case2 => cases h
  | case3 path done cap rest _ _ ih => exact ih h
  | case4 => cases h
  | case5 path done cap rest _ _ visited hvisit ihfirst ih =>
      exact (ihfirst hvisit).trans ((List.prefix_append visited [cap]).trans (ih h))

/-- Where an ordered list has a capability, visiting its prerequisites lists nothing else. -/
theorem mem_of_mem_visit_prerequisites {path : EnumSet Capability}
    {done visited listed : List Capability} {cap : Capability}
    (h : g.visit path done (g.prerequisites cap) = .ok visited) (hlisted : g.Ordered listed)
    (hdone : ∀ c ∈ done, c ∈ listed) (hcap : cap ∈ listed) : ∀ c ∈ visited, c ∈ listed := by
  intro c hc
  rcases mem_of_mem_visit h hc with hc | ⟨p, hp, rfl | hneeds⟩
  · exact hdone c hc
  · exact hlisted.mem_of_mem hcap (.single hp)
  · exact hlisted.mem_of_mem hcap (.head hp hneeds)

/-- Of two visits of the same capabilities, the one that starts with more listed ends with what the
other one lists, less what it had listed at the start. -/
theorem visit_eq_foldl_appendNew {path other : EnumSet Capability}
    {done todo result fewer fresh : List Capability} (h : g.visit path done todo = .ok result)
    (h' : g.visit other fewer todo = .ok fresh) (hdone : g.Ordered done)
    (hfewer : ∀ c ∈ fewer, c ∈ done) : result = fresh.foldl appendNew done := by
  fun_induction visit g path done todo generalizing other fewer result fresh with
  | case1 path done =>
      rw [visit] at h'
      cases h
      cases h'
      exact (foldl_appendNew_of_subset hfewer).symm
  | case2 => cases h
  | case3 path done cap rest _ hlisted ih =>
      obtain ⟨-, ⟨-, hrest⟩ | ⟨-, visited, hvisit, hrest⟩⟩ := visit_cons_eq_ok_iff.1 h'
      · exact ih h hrest hdone hfewer
      · -- The other visit catches up with what is listed here already.
        refine ih h hrest hdone fun c hc => ?_
        rcases List.mem_append.1 hc with hc | hc
        · exact mem_of_mem_visit_prerequisites hvisit hdone hfewer hlisted c hc
        · exact List.mem_singleton.1 hc ▸ hlisted
  | case4 => cases h
  | case5 path done cap rest _ hnew visited hvisit ihfirst ih =>
      obtain ⟨-, ⟨hlisted, -⟩ | ⟨-, visited', hvisit', hrest⟩⟩ := visit_cons_eq_ok_iff.1 h'
      · exact absurd (hfewer cap hlisted) hnew
      · obtain ⟨hkept, hprerequisites, hordered⟩ := visit_spec hvisit hdone
        have hvisited : visited = visited'.foldl appendNew done :=
          ihfirst hvisit hvisit' hdone hfewer
        have hcap : cap ∉ visited := fun hcap =>
          hnew (mem_of_mem_path_of_visit hvisit (EnumSet.mem_insert.2 (Or.inl rfl)) hcap)
        have hlisted : (visited' ++ [cap]).foldl appendNew done = visited ++ [cap] := by
          rw [List.foldl_append, ← hvisited, List.foldl_cons, List.foldl_nil,
            appendNew_of_not_mem hcap]
        have hsubset : ∀ c ∈ visited' ++ [cap], c ∈ visited ++ [cap] := by
          intro c hc
          rw [← hlisted]
          exact mem_foldl_appendNew.2 (Or.inr hc)
        obtain ⟨more, rfl⟩ := prefix_visit hrest
        calc result
          _ = (visited' ++ [cap] ++ more).foldl appendNew (visited ++ [cap]) :=
              ih h hrest (ordered_concat_iff.2 ⟨hordered, hprerequisites⟩) hsubset
          _ = more.foldl appendNew (visited ++ [cap]) := by
              rw [List.foldl_append, foldl_appendNew_of_subset hsubset]
          _ = (visited' ++ [cap] ++ more).foldl appendNew done := by
              rw [List.foldl_append, hlisted]

/-- Visiting a first capability and others is visiting the first and then the others. -/
theorem exists_visit_of_cons {path : EnumSet Capability} {done rest result : List Capability}
    {cap : Capability} (h : g.visit path done (cap :: rest) = .ok result) :
    ∃ middle, g.visit path done [cap] = .ok middle ∧ g.visit path middle rest = .ok result := by
  obtain ⟨hpath, ⟨hlisted, hrest⟩ | ⟨hnew, visited, hvisit, hrest⟩⟩ := visit_cons_eq_ok_iff.1 h
  · exact ⟨done, visit_cons_eq_ok_iff.2 ⟨hpath, Or.inl ⟨hlisted, by rw [visit]⟩⟩, hrest⟩
  · exact ⟨visited ++ [cap],
      visit_cons_eq_ok_iff.2 ⟨hpath, Or.inr ⟨hnew, visited, hvisit, by rw [visit]⟩⟩, hrest⟩

/-- Visiting some capabilities lists their orders one after the other, less what is listed
before. -/
theorem visit_eq_foldl_orders {path : EnumSet Capability} {done todo result : List Capability}
    {orders : List (List Capability)} (h : g.visit path done todo = .ok result)
    (hdone : g.Ordered done) (horders : todo.map g.order = orders.map .ok) :
    result = orders.flatten.foldl appendNew done := by
  induction todo generalizing done orders with
  | nil =>
      rw [visit] at h
      cases h
      cases List.map_eq_nil_iff.1 horders.symm
      rfl
  | cons cap rest ih =>
      cases orders with
      | nil => cases horders
      | cons first others =>
          rw [List.map_cons, List.map_cons, List.cons.injEq] at horders
          obtain ⟨middle, hfirst, hrest⟩ := exists_visit_of_cons h
          have hmiddle : middle = first.foldl appendNew done :=
            visit_eq_foldl_appendNew hfirst horders.1 hdone (List.forall_mem_nil _)
          rw [List.flatten_cons, List.foldl_append, ← hmiddle]
          exact ih hrest (visit_spec hfirst hdone).2.2 horders.2

/-- Where each of some capabilities has an order, there is the list of these orders. -/
theorem exists_orders {caps : List Capability}
    (h : ∀ cap ∈ caps, ∃ chain, g.order cap = .ok chain) :
    ∃ orders : List (List Capability), caps.map g.order = orders.map .ok := by
  induction caps with
  | nil => exact ⟨[], rfl⟩
  | cons cap rest ih =>
      obtain ⟨chain, hchain⟩ := h cap List.mem_cons_self
      obtain ⟨others, hothers⟩ := ih fun c hc => h c (List.mem_cons_of_mem _ hc)
      exact ⟨chain :: others, by rw [List.map_cons, List.map_cons, hchain, hothers]⟩

/-- In the graph of an accepted table, the order of a capability, which walking finds as well,
consists of the orders of its prerequisites, one after the other, and of the capability itself, each
entry where it comes first. -/
theorem order_eq_eraseDups {table : EnumTable Capability} (hvalid : ofTable table = .ok g)
    (cap : Capability) :
    (∀ c, g.walkFrom c = g.order c) ∧
      ∃ orders : List (List Capability), (g.prerequisites cap).map g.order = orders.map .ok ∧
        g.order cap = .ok (orders.flatten ++ [cap]).eraseDups := by
  obtain ⟨caps, horder⟩ := exists_order_of_ofTable hvalid cap
  obtain ⟨orders, horders⟩ := exists_orders fun p (_ : p ∈ g.prerequisites cap) =>
    exists_order_of_ofTable hvalid p
  refine ⟨g.walkFrom_eq_order, orders, horders, ?_⟩
  rw [order_eq] at horder ⊢
  cases hvisit : g.visit (EnumSet.empty.insert cap) [] (g.prerequisites cap) with
  | error e =>
      rw [hvisit] at horder
      cases horder
  | ok before =>
      -- The capability is not among what it needs, so it is new at the end.
      have hnew : cap ∉ before := fun hcap => List.not_mem_nil
        (mem_of_mem_path_of_visit hvisit (EnumSet.mem_insert.2 (Or.inl rfl)) hcap)
      have hbefore := visit_eq_foldl_orders hvisit ordered_nil horders
      rw [← foldl_appendNew_nil, List.foldl_append, ← hbefore, List.foldl_cons, List.foldl_nil,
        appendNew_of_not_mem hnew]
      rfl

/-- Two prerequisites of input attachment arrays that are indexed non-uniformly need shaders. -/
theorem order_eq_eraseDups_inputAttachmentArray :
    ofTable Capability.table = .ok standard ∧
      standard.order .inputAttachmentArrayNonUniformIndexingEXT =
        .ok ([.matrix, .shader, .inputAttachment] ++ [.matrix, .shader, .shaderNonUniformEXT] ++
          [.inputAttachmentArrayNonUniformIndexingEXT] : List Capability).eraseDups := by
  have hprerequisites : standard.prerequisites .inputAttachmentArrayNonUniformIndexingEXT =
      [.inputAttachment, .shaderNonUniformEXT] := by
    decide +kernel
  have hinput : standard.prerequisites .inputAttachment = [.shader] := by decide +kernel
  have hnonUniform : standard.prerequisites .shaderNonUniformEXT = [.shader] := by decide +kernel
  obtain ⟨-, orders, horders, horder⟩ :=
    order_eq_eraseDups ofTable_standard .inputAttachmentArrayNonUniformIndexingEXT
  refine ⟨ofTable_standard, ?_⟩
  have hfirst : standard.order .inputAttachment = .ok [.matrix, .shader, .inputAttachment] := by
    simp [order, visit, hinput, prerequisites_shader, prerequisites_matrix]
  have hsecond :
      standard.order .shaderNonUniformEXT = .ok [.matrix, .shader, .shaderNonUniformEXT] := by
    simp [order, visit, hnonUniform, prerequisites_shader, prerequisites_matrix]
  rw [hprerequisites, List.map_cons, List.map_cons, List.map_nil, hfirst, hsecond] at horders
  have horders : [[.matrix, .shader, .inputAttachment],
      [.matrix, .shader, .shaderNonUniformEXT]] = orders :=
    (List.map_inj_right fun _ _ => Except.ok.inj).1 horders
  rw [← horders] at horder
  exact horder

end SpirvLegality.PrerequisiteGraph
