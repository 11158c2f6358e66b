import SpirvLegality.Proofs.Encoding
import SpirvLegality.Proofs.Reading

/-!
# Units partition a listing

Each line of a listing has its own stretch of the source (`Line.StandsIn`). The instructions of the
lines are cut into those outside functions and one segment for each function (`Segmented`), and
placing them in turn makes this cut (`UnitBuilder.placeAll_of_not_opened`). So each line yields one
instruction, and the units hold each of these instructions once and in the order of the source
(`Module.exists_partition`).
-/

namespace SpirvLegality

namespace Listing

/-! ## Where lines stand -/

/-- A line stands in a source between two offsets, and no line feed is in it. -/
structure Line.StandsIn (line : Line) (source : List UInt8) (start stop : Nat) : Prop where
  le_start : start ≤ line.span.start.toNat
  start_lt : line.span.start < line.span.stop
  stop_le : line.span.stop.toNat ≤ stop
  newline_not_mem : '\n'.toUInt8 ∉ line.span.bytes source

/-- The line of a row stands in the row, unless offsets are cut off there. -/
theorem Line.standsIn_of_mem_ofWords {p : Position} {before row : List Char}
    (hbefore : p.offset = (utf8 before).length) (hrow : '\n' ∉ row)
    (hshort : (p.advance row).offset < 2 ^ 32) {t : Token}
    (ht : t.span.start = .ofNat (p.advance row).offset) {line : Line}
    (hline : line ∈ Line.ofWords (wordsAt p row) t) (rest : List Char) :
    line.StandsIn (utf8 (before ++ row ++ rest)) p.offset (p.advance row).offset := by
  have hwords : ∀ w ∈ wordsAt p row, w.StandsIn p (p.advance row).offset :=
    fun w hw => standsIn_of_mem_wordsAt hrow hw
  cases hcons : wordsAt p row with
  | nil =>
      rw [hcons] at hline
      cases hline
  | cons first others =>
      rw [hcons] at hline hwords
      cases List.mem_singleton.1 hline
      obtain ⟨offset, hle, hlt, hoffset⟩ := (hwords first List.mem_cons_self).exists_start
      have hstart : first.span.start.toNat = offset :=
        hoffset ▸ UInt32.toNat_ofNat_of_lt (Nat.lt_trans hlt hshort)
      have hend : t.span.start.toNat = (p.advance row).offset :=
        ht ▸ UInt32.toNat_ofNat_of_lt hshort
      refine ⟨hle.trans_eq hstart.symm, ?_, Nat.le_of_eq hend, ?_⟩
      · show first.span.start < t.span.start
        rwa [UInt32.lt_iff_toNat_lt, hstart, hend]
      · -- What is between the first token and the end of the row belongs to the row.
        have hstop : t.span.start.toNat = (utf8 (before ++ row)).length := by
          rw [hend, Position.offset_advance, hbefore, utf8_append, List.length_append]
        intro hmem
        have hmem : '\n'.toUInt8 ∈ ((utf8 (before ++ row ++ rest)).take
            t.span.start.toNat).drop first.span.start.toNat := hmem
        rw [hstop, hstart, utf8_append (before ++ row), List.take_left, utf8_append] at hmem
        have hdrop := List.drop_sublist_drop_left (utf8 before ++ utf8 row) (hbefore ▸ hle)
        rw [List.drop_left] at hdrop
        exact hrow ((toUInt8_mem_utf8_iff (by decide)).1 (hdrop.subset hmem))

theorem Line.StandsIn.mono {line : Line} {source : List UInt8} {start stop start' stop' : Nat}
    (h : line.StandsIn source start stop) (hstart : start' ≤ start) (hstop : stop ≤ stop') :
    line.StandsIn source start' stop' where
  le_start := Nat.le_trans hstart h.le_start
  start_lt := h.start_lt
  stop_le := Nat.le_trans h.stop_le hstop
  newline_not_mem := h.newline_not_mem

/-- A row has one line at most. -/
theorem Line.pairwise_ofWords (R : Line → Line → Prop) (words : List Token) (t : Token) :
    (Line.ofWords words t).Pairwise R := by
  cases words with
  | nil => exact .nil
  | cons first others => exact List.pairwise_singleton R _

/-- The lines of a text stand in it one behind the other. -/
theorem standsIn_lines (p : Position) (before text : List Char)
    (hbefore : p.offset = (utf8 before).length) (hshort : (p.advance text).offset < 2 ^ 32) :
    (∀ line ∈ lines (tokensAt p text),
      line.StandsIn (utf8 (before ++ text)) p.offset (p.advance text).offset) ∧
    (lines (tokensAt p text)).Pairwise fun line later => line.span.stop < later.span.start := by
  induction p, text using row_induction generalizing before with
  | last p row hrow =>
      rw [lines_of_not_mem p hrow]
      refine ⟨fun line hline => ?_, Line.pairwise_ofWords _ _ _⟩
      have hstands := Line.standsIn_of_mem_ofWords hbefore hrow hshort rfl hline []
      rwa [List.append_nil] at hstands
  | newline p row rest hrow ih =>
      have hplace : ((p.advance row).next '\n').offset =
          (utf8 (before ++ row ++ ['\n'])).length := by
        rw [utf8_append, utf8_append, List.length_append, List.length_append, ← hbefore,
          ← Position.offset_advance]
        rfl
      have hnext : (p.advance row).offset < ((p.advance row).next '\n').offset :=
        Nat.lt_add_of_pos_right (Char.utf8Size_pos _)
      have hend : (p.advance (row ++ '\n' :: rest)).offset =
          (((p.advance row).next '\n').advance rest).offset := by
        rw [Position.advance_append, Position.advance_cons]
      rw [hend] at hshort ⊢
      obtain ⟨hrest, hpairwise⟩ := ih (before ++ row ++ ['\n']) hplace hshort
      have hbehind : (p.advance row).offset ≤
          (((p.advance row).next '\n').advance rest).offset :=
        Nat.le_trans (Nat.le_of_lt hnext) (Position.offset_le_advance _ rest)
      have hfirst (line : Line)
          (hline : line ∈ Line.ofWords (wordsAt p row) (newlineAt (p.advance row))) :=
        Line.standsIn_of_mem_ofWords hbefore hrow (Nat.lt_of_le_of_lt hbehind hshort) rfl hline
          ('\n' :: rest)
      simp only [List.append_assoc, List.singleton_append] at hrest hfirst
      rw [lines_append_newline p hrow]
      constructor
      · intro line hline
        rcases List.mem_append.1 hline with hline | hline
        · exact (hfirst line hline).mono (Nat.le_refl _) hbehind
        · exact (hrest line hline).mono
            (Nat.le_trans (p.offset_le_advance row) (Nat.le_of_lt hnext)) (Nat.le_refl _)
      · refine List.pairwise_append.2 ⟨Line.pairwise_ofWords _ _ _, hpairwise, ?_⟩
        intro line hline later hlater
        refine UInt32.lt_iff_toNat_lt.2 ?_
        calc line.span.stop.toNat
          _ ≤ (p.advance row).offset := (hfirst line hline).stop_le
          _ < ((p.advance row).next '\n').offset := hnext
          _ ≤ later.span.start.toNat := (hrest later hlater).le_start

/-! ## Cutting instructions into units -/

/-- An instruction that neither begins nor ends a function. -/
def Ordinary (inst : Instruction) : Prop := inst.opcode ≠ .function ∧ inst.opcode ≠ .functionEnd

/-- Instructions are cut into those outside functions and one segment for each function, which
begins with `OpFunction`, ends with `OpFunctionEnd`, and has neither in between. -/
inductive Segmented : List Instruction → List Instruction → List (List Instruction) → Prop
  | nil : Segmented [] [] []
  | outside {inst : Instruction} {source outside : List Instruction}
      {functions : List (List Instruction)} (hinst : Ordinary inst)
      (hrest : Segmented source outside functions) :
      Segmented (inst :: source) (inst :: outside) functions
  | function {first last : Instruction} {body source outside : List Instruction}
      {functions : List (List Instruction)} (hfirst : first.opcode = .function)
      (hbody : ∀ inst ∈ body, Ordinary inst) (hlast : last.opcode = .functionEnd)
      (hrest : Segmented source outside functions) :
      Segmented (first :: (body ++ last :: source)) outside
        ((first :: (body ++ [last])) :: functions)

namespace Segmented

variable {source outside : List Instruction} {functions : List (List Instruction)}

/-- Each instruction is either outside functions or in one of them. -/
theorem perm (h : Segmented source outside functions) :
    (outside ++ functions.flatten).Perm source := by
  induction h with
  | nil => exact .nil
  | outside _ _ ih => exact ih.cons _
  | @function first last body source outside functions _ _ _ _ ih =>
      have hfront := (List.perm_append_comm_assoc outside (first :: (body ++ [last]))
        functions.flatten).trans (ih.append_left (first :: (body ++ [last])))
      simpa using hfront

/-- The instructions outside functions stand in the order of the source. -/
theorem outside_sublist (h : Segmented source outside functions) : outside.Sublist source := by
  induction h with
  | nil => exact .slnil
  | outside _ _ ih => exact ih.cons_cons _
  | function _ _ _ _ ih => exact ((ih.cons _).trans (List.sublist_append_right _ _)).cons _

/-- The instructions of a function stand together in the source. -/
theorem infix_of_mem (h : Segmented source outside functions) {function : List Instruction}
    (hmem : function ∈ functions) : function <:+: source := by
  induction h with
  | nil => cases hmem
  | outside _ _ ih => exact (ih hmem).trans (List.suffix_cons _ _).isInfix
  | @function first last body source outside functions _ _ _ _ ih =>
      have hsource : first :: (body ++ last :: source) = (first :: (body ++ [last])) ++ source := by
        simp
      rw [hsource]
      rcases List.mem_cons.1 hmem with rfl | hmem
      · exact (List.prefix_append _ source).isInfix
      · exact (ih hmem).trans (List.suffix_append _ source).isInfix

end Segmented

namespace UnitBuilder

variable {units placed : UnitBuilder} {placements : List Placement}

/-- The units when the function at hand has ended with further instructions. -/
def close (units : UnitBuilder) (f : OpenFunction) (more : List Instruction) : UnitBuilder where
  outside := units.outside
  functions := ⟨f.name, f.instructions.reverse ++ more⟩ :: units.functions
  finished := units.finished + 1
  opened := none

/-- What placing an instruction does, by its opcode and by whether a function is open. -/
theorem place_cases {line : Nat} {name : Option String} {inst : Instruction} {next : UnitBuilder}
    (h : units.place line name inst = .ok next) :
    (inst.opcode = .function ∧ units.opened = none ∧
        ∃ f, f.line = line ∧ f.instructions = [inst] ∧ next = { units with opened := some f }) ∨
      (inst.opcode = .functionEnd ∧ ∃ f, units.opened = some f ∧ next = units.close f [inst]) ∨
      (Ordinary inst ∧ units.opened = none ∧
        next = { units with outside := inst :: units.outside }) ∨
      (Ordinary inst ∧ ∃ f, units.opened = some f ∧
        next = { units with opened := some { f with instructions := inst :: f.instructions } }) := by
  by_cases hfunction : inst.opcode = .function
  · rw [place, hfunction] at h
    cases hopened : units.opened with
    | some f =>
        rw [hopened] at h
        cases h
    | none =>
        rw [hopened] at h
        cases h
        exact Or.inl ⟨hfunction, rfl, _, rfl, rfl, rfl⟩
  · by_cases hend : inst.opcode = .functionEnd
    · rw [place, hend] at h
      cases hopened : units.opened with
      | none =>
          rw [hopened] at h
          cases h
      | some f =>
          rw [hopened] at h
          cases h
          exact Or.inr (Or.inl ⟨hend, f, rfl, by rw [close, List.reverse_cons]⟩)
    · cases hopened : units.opened with
      | none =>
          rw [place_of_not_opened hfunction hend hopened] at h
          cases h
          exact Or.inr (Or.inr (Or.inl ⟨⟨hfunction, hend⟩, rfl, by rw [hopened]⟩))
      | some f =>
          rw [place_of_opened hfunction hend hopened] at h
          cases h
          exact Or.inr (Or.inr (Or.inr ⟨⟨hfunction, hend⟩, f, rfl, rfl⟩))

theorem placeAll_cons_eq_ok_iff {p : Placement} :
    units.placeAll (p :: placements) = .ok placed ↔
      ∃ next, units.place p.line p.name p.instruction = .ok next ∧
        next.placeAll placements = .ok placed := by
  rw [placeAll]
  cases units.place p.line p.name p.instruction <;> simp

/-- Where a function is open, what is placed goes into it up to its end. -/
theorem placeAll_of_opened {f : OpenFunction} (hopened : units.opened = some f)
    (h : units.placeAll placements = .ok placed) (hplaced : placed.opened = none) :
    ∃ body last rest, placements = body ++ last :: rest ∧
      (∀ p ∈ body, Ordinary p.instruction) ∧ last.instruction.opcode = .functionEnd ∧
      (units.close f ((body ++ [last]).map (·.instruction))).placeAll rest = .ok placed := by
  induction placements generalizing units f with
  | nil =>
      cases h
      rw [hopened] at hplaced
      cases hplaced
  | cons p placements ih =>
      obtain ⟨next, hplace, h⟩ := placeAll_cons_eq_ok_iff.1 h
      rcases place_cases hplace with ⟨-, hnone, -⟩ | ⟨hend, g, hg, rfl⟩ | ⟨-, hnone, -⟩ |
        ⟨hordinary, g, hg, rfl⟩
      · rw [hnone] at hopened
        cases hopened
      · cases hg.symm.trans hopened
        exact ⟨[], p, placements, rfl, List.forall_mem_nil _, hend, h⟩
      · rw [hnone] at hopened
        cases hopened
      · cases hg.symm.trans hopened
        obtain ⟨body, last, rest, rfl, hbody, hlast, hrest⟩ := ih rfl h
        refine ⟨p :: body, last, rest, rfl, List.forall_mem_cons.2 ⟨hordinary, hbody⟩, hlast, ?_⟩
        rw [← hrest, close, close]
        simp

/-- Where no function is open, what is placed is cut into segments. -/
theorem placeAll_of_not_opened (hopened : units.opened = none)
    (h : units.placeAll placements = .ok placed) (hplaced : placed.opened = none) :
    ∃ outside functions, Segmented (placements.map (·.instruction)) outside functions ∧
      placed.outside.reverse = units.outside.reverse ++ outside ∧
      placed.functions.reverse.map (·.instructions) =
        units.functions.reverse.map (·.instructions) ++ functions := by
  induction hlength : placements.length using Nat.strong_induction_on
    generalizing units placements with
  | _ n ih =>
      cases placements with
      | nil =>
          cases h
          exact ⟨[], [], .nil, (List.append_nil _).symm, (List.append_nil _).symm⟩
      | cons p placements =>
          rw [List.length_cons] at hlength
          obtain ⟨next, hplace, h⟩ := placeAll_cons_eq_ok_iff.1 h
          rcases place_cases hplace with ⟨hfunction, -, f, -, hf, rfl⟩ | ⟨-, f, hsome, -⟩ |
            ⟨hordinary, -, rfl⟩ | ⟨-, f, hsome, -⟩
          · obtain ⟨body, last, rest, rfl, hbody, hlast, hrest⟩ :=
              placeAll_of_opened rfl h hplaced
            rw [List.length_append, List.length_cons] at hlength
            obtain ⟨outside, functions, hsegmented, houtside, hfunctions⟩ :=
              ih rest.length (by omega) rfl hrest rfl
            refine ⟨outside, (p.instruction :: (body.map (·.instruction) ++ [last.instruction])) ::
              functions, ?_, houtside, ?_⟩
            · rw [List.map_cons, List.map_append, List.map_cons]
              exact .function hfunction (List.forall_mem_map.2 hbody) hlast hsegmented
            · rw [hfunctions, close, hf]
              simp
          · rw [hsome] at hopened
            cases hopened
          · have hnext : ({ units with outside := p.instruction :: units.outside } :
              UnitBuilder).opened = none := hopened
            obtain ⟨outside, functions, hsegmented, houtside, hfunctions⟩ :=
              ih placements.length (by omega) hnext h rfl
            refine ⟨p.instruction :: outside, functions, .outside hordinary hsegmented, ?_,
              hfunctions⟩
            rw [houtside]
            simp
          · rw [hsome] at hopened
            cases hopened

end UnitBuilder

/-! ## The units of a text -/

/-- A text that is read spells sentences that define each value once. Their instructions are placed,
up to the end of a function, and the units are those that were placed. -/
theorem exists_placed_of_parse {text : String} {m : Module} (h : Module.parse text = .ok m) :
    ∃ sentences placed, List.Forall₂ Sentence.SpelledBy sentences (rows (kinds text)) ∧
      (definedValues (nameOrder [] sentences) sentences).Nodup ∧
      UnitBuilder.placeAll {} (placements text sentences) = .ok placed ∧ placed.opened = none ∧
      m = ⟨⟨outsideName, placed.outside.reverse⟩ :: placed.functions.reverse,
        nameOrder [] sentences⟩ := by
  obtain ⟨sentences, hspelled, hdistinct⟩ := exists_sentences_of_parse h
  rw [parse_eq hspelled hdistinct] at h
  cases hplaced : UnitBuilder.placeAll {} (placements text sentences) with
  | error e =>
      rw [hplaced] at h
      cases h
  | ok placed =>
      rw [hplaced] at h
      have h : placed.finish.map _ = .ok m := h
      rw [UnitBuilder.finish] at h
      cases hopened : placed.opened with
      | some f =>
          rw [hopened] at h
          cases h
      | none =>
          rw [hopened] at h
          cases h
          exact ⟨sentences, placed, hspelled, hdistinct, hplaced, hopened, rfl⟩

/-- A line yields the instruction of the sentence that it says, where names have the values of a
list. -/
def Line.Yields (names : List String) (line : Line) (inst : Instruction) : Prop :=
  ∃ s : Sentence, s.SpelledBy line.kinds ∧ inst = s.instruction names line.span

/-- The instruction of a line has its span. -/
theorem Line.Yields.span_eq {names : List String} {line : Line} {inst : Instruction}
    (h : line.Yields names inst) : inst.span = line.span := by
  obtain ⟨⟨result, opcode, arguments⟩, -, rfl⟩ := h
  cases result <;> rfl

theorem map_span_eq {names : List String} {lines : List Line} {source : List Instruction}
    (h : List.Forall₂ (Line.Yields names) lines source) :
    source.map (·.span) = lines.map Line.span := by
  induction h with
  | nil => rfl
  | cons hline _ ih => exact congrArg₂ List.cons hline.span_eq ih

/-- Lines yield what is placed for them. -/
theorem forall₂_yields (names : List String) {lines : List Line} {sentences : List Sentence}
    (hspelled : List.Forall₂ Sentence.SpelledBy sentences (lines.map Line.kinds)) :
    List.Forall₂ (Line.Yields names) lines
      ((List.zipWith (placement names) lines sentences).map (·.instruction)) := by
  induction lines generalizing sentences with
  | nil => exact .nil
  | cons line lines ih =>
      cases hspelled with
      | cons hs hsentences => exact .cons ⟨_, hs, rfl⟩ (ih hsentences)

/-- The spans of a short text stand in it one behind the other. -/
theorem spans_increase {text : String} (hshort : text.utf8ByteSize < 2 ^ 32) :
    (lines (tokens text)).Pairwise (fun line later => line.span.stop < later.span.start) ∧
    ∀ line ∈ lines (tokens text), line.StandsIn (sourceBytes text) 0 text.utf8ByteSize := by
  have hend : (Position.advance {} text.toList).offset = text.utf8ByteSize := by
    rw [Position.offset_advance, ← sourceBytes_eq, length_sourceBytes]
    exact Nat.zero_add _
  obtain ⟨hstands, hpairwise⟩ := standsIn_lines {} [] text.toList rfl (hend ▸ hshort)
  rw [hend, List.nil_append, ← sourceBytes_eq] at hstands
  exact ⟨hpairwise, hstands⟩

end Listing

open Listing

/-- The lines of a text that is read yield the instructions of its sentences, and the units of the
module are these, cut into those outside functions and the functions. -/
theorem Module.exists_segmented_of_parse {text : String} {m : Module}
    (h : Module.parse text = .ok m) :
    ∃ sentences outside functions,
      List.Forall₂ Sentence.SpelledBy sentences (rows (kinds text)) ∧
      (definedValues m.names sentences).Nodup ∧ m.names = nameOrder [] sentences ∧
      List.Forall₂ (Line.Yields m.names) (lines (tokens text))
        ((placements text sentences).map (·.instruction)) ∧
      Segmented ((placements text sentences).map (·.instruction)) outside
        (functions.map CodeUnit.instructions) ∧
      m.units = ⟨outsideName, outside⟩ :: functions := by
  obtain ⟨sentences, placed, hspelled, hdistinct, hplaced, hopened, rfl⟩ :=
    exists_placed_of_parse h
  obtain ⟨outside, functions, hsegmented, houtside, hfunctions⟩ :=
    UnitBuilder.placeAll_of_not_opened rfl hplaced hopened
  refine ⟨sentences, outside, placed.functions.reverse, hspelled, hdistinct, rfl, ?_, ?_, ?_⟩
  · rw [← map_kinds_lines] at hspelled
    exact forall₂_yields _ hspelled
  · rw [hfunctions]
    exact hsegmented
  · rw [houtside]
    rfl

/-- The units hold the instructions of the sentences. -/
theorem Module.perm_of_segmented {m : Module} {source outside : List Instruction}
    {functions : List CodeUnit}
    (hsegmented : Segmented source outside (functions.map CodeUnit.instructions))
    (hunits : m.units = ⟨outsideName, outside⟩ :: functions) : m.instructions.Perm source := by
  rw [Module.instructions, hunits, List.flatMap_cons, List.flatMap_def]
  exact hsegmented.perm

/-- The units of a module partition the lines of a text: each line yields one of the instructions in
`source`, and the units hold these once. The first unit has those outside functions, and each other
one is a function. A span begins with the first token of its line. Where offsets fit into 32 bits,
the spans within a unit increase and do not overlap, and a span has no line feed in it. -/
structure Module.Partitions (m : Module) (text : String) (source outside : List Instruction)
    (functions : List CodeUnit) : Prop where
  yields : List.Forall₂ (Line.Yields m.names) (lines (tokens text)) source
  perm : m.instructions.Perm source
  units_eq : m.units = ⟨"<module>", outside⟩ :: functions
  segmented : Segmented source outside (functions.map CodeUnit.instructions)
  start_eq : List.Forall₂ (fun line inst => inst.span.start = line.first.span.start)
    (lines (tokens text)) source
  increasing : text.utf8ByteSize < 2 ^ 32 → ∀ unit ∈ m.units,
    unit.instructions.Pairwise fun inst later => inst.span.stop < later.span.start
  within : text.utf8ByteSize < 2 ^ 32 → ∀ inst ∈ source, inst.span.start < inst.span.stop ∧
    inst.span.stop.toNat ≤ text.utf8ByteSize ∧
      '\n'.toUInt8 ∉ inst.span.bytes (sourceBytes text)

/-- The units of a module that is read partition the lines of its text. -/
theorem Module.exists_partition {text : String} {m : Module} (h : Module.parse text = .ok m) :
    ∃ source outside functions, m.Partitions text source outside functions := by
  obtain ⟨sentences, outside, functions, -, -, -, hyields, hsegmented, hunits⟩ :=
    Module.exists_segmented_of_parse h
  have hspans := map_span_eq hyields
  refine ⟨_, outside, functions, hyields, Module.perm_of_segmented hsegmented hunits, hunits,
    hsegmented, ?_, fun hshort => ?_, fun hshort => ?_⟩
  · refine hyields.imp fun line inst hyield => ?_
    rw [hyield.span_eq]
    rfl
  · have hlines : ((lines (tokens text)).map Line.span).Pairwise fun s t => s.stop < t.start :=
      List.pairwise_map.2 (spans_increase hshort).1
    rw [← hspans] at hlines
    intro unit hunit
    rw [hunits] at hunit
    refine (List.pairwise_map.1 hlines).sublist ?_
    rcases List.mem_cons.1 hunit with rfl | hfunction
    · exact hsegmented.outside_sublist
    · exact (hsegmented.infix_of_mem (List.mem_map_of_mem hfunction)).sublist
  · intro inst hinst
    have hspan := List.mem_map_of_mem (f := fun inst => inst.span) hinst
    rw [hspans] at hspan
    obtain ⟨line, hline, heq⟩ := List.mem_map.1 hspan
    have hstand := (spans_increase hshort).2 line hline
    rw [← heq]
    exact ⟨hstand.start_lt, hstand.stop_le, hstand.newline_not_mem⟩

theorem exists_parse_interleaved : ∃ m, Module.parse interleaved = .ok m :=
  (exists_parse_iff spelledBy_interleaved (by decide +kernel)).2 ⟨2, by decide⟩

theorem Module.exists_partition_interleaved :
    interleaved.utf8ByteSize < 2 ^ 32 ∧ ∃ m, Module.parse interleaved = .ok m ∧
      ∃ source outside functions, m.Partitions interleaved source outside functions := by
  obtain ⟨m, hm⟩ := exists_parse_interleaved
  exact ⟨by decide +kernel, m, hm, Module.exists_partition hm⟩

end SpirvLegality
