import SpirvLegality.Module.Places
import SpirvLegality.Proofs.Blindness

/-!
# The first definition of a value

Places are collected in two nested loops, which go over the places of all definitions in order
(`Module.places_eq_foldl`) and keep the first place of each value (`Module.find?_places`). Places in
order are positions in order among the instructions of all units (`map_placed`), so the instruction
at the place of a value is the first instruction that defines the value
(`Module.first_definition_found`).
-/

namespace SpirvLegality

namespace PlaceIndex

/-- The index with one more place, unless its value has a place already. -/
def insert (index : PlaceIndex) (place : Module.Location) : PlaceIndex :=
  ⟨index.entries.insertIfNew place.value place⟩

theorem find?_insert (index : PlaceIndex) (place : Module.Location) (id : ValueId) :
    (index.insert place).find? id =
      (index.find? id).or (if place.value = id then some place else none) := by
  rw [insert, find?, find?, Std.HashMap.getElem?_insertIfNew]
  by_cases hvalue : place.value = id
  · subst hvalue
    cases hfound : index.entries[place.value]? with
    | none =>
        have hnew : place.value ∉ index.entries := by simpa using hfound
        simp [hnew]
    | some found =>
        have hold : place.value ∈ index.entries :=
          Std.HashMap.mem_iff_isSome_getElem?.2 (by simp [hfound])
        simp [hold]
  · simp [hvalue]

/-- Of several places of one value the first is kept. -/
theorem find?_foldl_insert (index : PlaceIndex) (places : List Module.Location) (id : ValueId) :
    (places.foldl insert index).find? id =
      (index.find? id).or (places.find? fun place => place.value = id) := by
  induction places generalizing index with
  | nil => simp
  | cons place rest ih =>
      rw [List.foldl_cons, ih, find?_insert, Option.or_assoc, List.find?_cons]
      by_cases hvalue : place.value = id <;> simp [hvalue]

end PlaceIndex

namespace Module

/-- The place of the definition at a position of the unit `u`, if a value is defined there. -/
def siteOf? (u : Nat) (entry : Instruction × Nat) : Option Location :=
  entry.1.result.map fun id => ⟨id, u, entry.2⟩

theorem addUnit_eq_foldl (index : PlaceIndex) (entry : CodeUnit × Nat) :
    index.addUnit entry =
      (entry.1.instructions.zipIdx.filterMap (siteOf? entry.2)).foldl .insert index := by
  rw [List.foldl_filterMap, PlaceIndex.addUnit]
  congr 1
  funext index entry
  rw [PlaceIndex.add, siteOf?]
  cases entry.1.result <;> rfl

/-- The two loops go over the places of all definitions. -/
theorem places_eq_foldl (m : Module) : m.places = m.definitionSites.foldl .insert .empty := by
  rw [places, PlaceIndex.ofUnits, definitionSites, List.foldl_flatMap]
  congr 1
  funext index entry
  exact addUnit_eq_foldl index entry

theorem find?_places (m : Module) (id : ValueId) :
    m.places.find? id = m.definitionSites.find? fun place => place.value = id := by
  rw [places_eq_foldl, PlaceIndex.find?_foldl_insert]
  simp [PlaceIndex.find?, PlaceIndex.empty]

end Module

/-! ## Places in order -/

/-- The entries of some blocks in order, each with the number of its block and its position
therein. -/
def placed {α : Type} (blocks : List (List α)) : List (α × Nat × Nat) :=
  blocks.zipIdx.flatMap fun (block, u) => block.zipIdx.map fun (a, i) => (a, u, i)

/-- The position of a place among the entries of all blocks. -/
def offsetIn {α : Type} (blocks : List (List α)) (u i : Nat) : Nat :=
  (blocks.take u).flatten.length + i

theorem offsetIn_succ {α : Type} (first : List α) (rest : List (List α)) (u i : Nat) :
    offsetIn (first :: rest) (u + 1) i = first.length + offsetIn rest u i := by
  simp [offsetIn, Nat.add_assoc]

theorem placed_cons {α : Type} (first : List α) (rest : List (List α)) :
    placed (first :: rest) = (first.zipIdx.map fun (a, i) => (a, 0, i)) ++
      (placed rest).map fun (a, u, i) => (a, u + 1, i) := by
  rw [placed, List.zipIdx_cons', List.flatMap_cons, List.flatMap_map, placed, List.map_flatMap]
  simp [Function.comp_def]

/-- The places of the entries are in the order of their positions. -/
theorem map_placed {α : Type} (blocks : List (List α)) :
    (placed blocks).map (fun (a, u, i) => (a, offsetIn blocks u i)) = blocks.flatten.zipIdx := by
  induction blocks with
  | nil => rfl
  | cons first rest ih =>
      rw [placed_cons, List.map_append, List.map_map, List.map_map, List.flatten_cons,
        List.zipIdx_append, Nat.zero_add, List.zipIdx_eq_map_add (l := rest.flatten), ← ih,
        List.map_map]
      simp only [Function.comp_def, offsetIn_succ]
      simp [offsetIn]

/-- At the place of an entry stands the entry. -/
theorem getElem?_of_mem_placed {α : Type} {blocks : List (List α)} {a : α} {u i : Nat}
    (h : (a, u, i) ∈ placed blocks) : blocks[u]?.bind (·[i]?) = some a := by
  obtain ⟨⟨block, v⟩, hblock, h⟩ := List.mem_flatMap.1 h
  obtain ⟨⟨b, j⟩, hentry, heq⟩ := List.mem_map.1 h
  cases heq
  rw [List.mem_zipIdx_iff_getElem?.1 hblock]
  exact List.mem_zipIdx_iff_getElem?.1 hentry

namespace Module

/-- The position of a place among the instructions of all units. -/
def offset (m : Module) (place : Location) : Nat :=
  offsetIn (m.units.map (·.instructions)) place.unit place.position

/-- The instructions of all units with their places. -/
def placedInstructions (m : Module) : List (Instruction × Nat × Nat) :=
  placed (m.units.map (·.instructions))

theorem map_placedInstructions (m : Module) :
    m.placedInstructions.map (fun (inst, u, i) =>
      (inst, offsetIn (m.units.map (·.instructions)) u i)) = m.instructions.zipIdx := by
  rw [placedInstructions, map_placed, instructions, List.flatMap_def]

theorem definitionSites_eq (m : Module) :
    m.definitionSites = m.placedInstructions.filterMap fun (inst, u, i) =>
      inst.result.map fun id => ⟨id, u, i⟩ := by
  rw [definitionSites, placedInstructions, placed, List.zipIdx_map, List.flatMap_map,
    List.filterMap_flatMap]
  simp only [List.filterMap_map]
  rfl

/-- The place of a value is that of the first instruction that defines it. -/
theorem find?_places_eq (m : Module) (id : ValueId) :
    m.places.find? id =
      (m.placedInstructions.find? fun entry => entry.1.result = some id).map
        fun (_, u, i) => ⟨id, u, i⟩ := by
  have hdefines : (fun entry : Instruction × Nat × Nat =>
      (entry.1.result.map fun value => (⟨value, entry.2.1, entry.2.2⟩ : Location)).any
        fun place => place.value = id) = fun entry => decide (entry.1.result = some id) := by
    funext entry
    cases entry.1.result <;> simp
  rw [find?_places, definitionSites_eq, List.find?_filterMap]
  simp only [hdefines]
  cases hfound : m.placedInstructions.find? fun entry => entry.1.result = some id with
  | none => rfl
  | some entry =>
      have hresult : entry.1.result = some id := by simpa using List.find?_some hfound
      simp [hresult]

/-- At the place of a value stands the instruction that a search of the list finds. -/
theorem definition?_eq (m : Module) (id : ValueId) :
    m.definition? id = Definitions.ofList m.instructions id := by
  have hlist : m.instructions = m.placedInstructions.map (·.1) := by
    rw [← List.zipIdx_map_fst 0 m.instructions, ← map_placedInstructions, List.map_map]
    rfl
  rw [definition?, find?_places_eq, Definitions.ofList, hlist, List.find?_map]
  cases hfound : m.placedInstructions.find? fun entry => entry.1.result = some id with
  | none => simpa using hfound
  | some entry =>
      obtain ⟨inst, u, i⟩ := entry
      have hplace := getElem?_of_mem_placed (List.mem_of_find?_eq_some hfound)
      rw [List.getElem?_map, Option.bind_map] at hplace
      simp only [Function.comp_def, hfound]
      exact hplace

/-- The place of a value is the position of the first instruction that defines it. -/
theorem map_offset_find?_places (m : Module) (id : ValueId) :
    (m.places.find? id).map m.offset =
      m.instructions.findIdx? fun inst => inst.result = some id := by
  rw [find?_places_eq, List.findIdx?_eq_fst_find?_zipIdx, ← map_placedInstructions, List.find?_map,
    Option.map_map, Option.map_map]
  rfl

/-- A module finds the instruction that a search of all its instructions from the first on finds,
and finds none when no instruction defines the value. -/
theorem first_definition_found (m : Module) (id : ValueId) :
    m.definition? id = Definitions.ofList m.instructions id ∧
      m.index.find? id = Definitions.ofList m.instructions id ∧
      ((m.places.find? id).map m.offset =
        m.instructions.findIdx? fun inst => inst.result = some id) ∧
      (m.definition? id = none ↔ ∀ inst ∈ m.instructions, inst.result ≠ some id) := by
  refine ⟨m.definition?_eq id, ?_, m.map_offset_find?_places id, ?_⟩
  · rw [index, DefinitionIndex.find?_ofUnits]
    rfl
  · rw [definition?_eq, Definitions.ofList, List.find?_eq_none]
    simp

end Module

end SpirvLegality
