import SpirvLegality.Proofs.Placing
import SpirvLegality.Proofs.Sentences

/-!
# Reading a listing

The lines of a listing are read in turn. Lines that spell sentences and define no value twice are
read as the instructions of these sentences, with the values that the names have in the order of
their first appearance (`readLines_eq`), and no other lines can be read
(`exists_sentences_of_readLines`). A text is therefore read by placing the instructions of its
sentences (`parse_eq`). Names that are defined twice have the same value, and the first `2 ^ 32`
names have different ones (`nodup_definedValues`), so `parse_accepts_iff` says which texts are
listings in terms of names.
-/

namespace SpirvLegality

namespace Listing

variable {table : NameTable} {names : List String} {defined : List ValueId}

/-! ## Reading the lines -/

/-- The placement of the instruction of a line that says a sentence. -/
def placement (names : List String) (line : Line) (s : Sentence) : Placement :=
  ⟨line.first.line, s.valueName? names, s.instruction names line.span⟩

/-- The names of some sentences in the order of their first appearance, behind earlier names. -/
def nameOrder (earlier : List String) (sentences : List Sentence) : List String :=
  (sentences.flatMap Sentence.names).foldl appendNew earlier

/-- The names that some sentences define. -/
def definedNames (sentences : List Sentence) : List String := sentences.filterMap Sentence.result

/-- The values that some sentences define, where names have the values of a list. -/
def definedValues (names : List String) (sentences : List Sentence) : List ValueId :=
  (definedNames sentences).map (valueIn names)

theorem prefix_nameOrder (earlier : List String) (sentences : List Sentence) :
    earlier <+: nameOrder earlier sentences :=
  prefix_foldl_appendNew earlier _

theorem nameOrder_cons (earlier : List String) (s : Sentence) (rest : List Sentence) :
    nameOrder earlier (s :: rest) = nameOrder (s.names.foldl appendNew earlier) rest := by
  rw [nameOrder, List.flatMap_cons, List.foldl_append]
  rfl

theorem definedValues_cons (names : List String) (s : Sentence) (rest : List Sentence) :
    definedValues names (s :: rest) = (s.value? names).toList ++ definedValues names rest := by
  cases h : s.result <;> simp [definedValues, definedNames, Sentence.value?, h]

/-- A name that is defined is a name in a sentence. -/
theorem exists_names_of_mem_definedNames {sentences : List Sentence} {name : String}
    (h : name ∈ definedNames sentences) : ∃ s ∈ sentences, name ∈ s.names := by
  obtain ⟨s, hs, hresult⟩ := List.mem_filterMap.1 h
  exact ⟨s, hs, List.mem_append_left _ (Option.mem_toList.2 hresult)⟩

/-- What a sentence says stays the same as further names appear. -/
theorem placement_of_isPrefix {s : Sentence} {longer : List String} (line : Line)
    (hnames : s.names ⊆ names) (hlonger : names <+: longer) :
    placement longer line s = placement names line s := by
  have hvalue := Sentence.value?_of_isPrefix hnames hlonger
  have hname : s.valueName? longer = s.valueName? names := by
    rw [Sentence.valueName?, Sentence.valueName?, hvalue, Sentence.value?, Option.bind_map,
      Option.bind_map]
    refine Option.bind_congr fun name hname => ?_
    have hmem := hnames (List.mem_append_left _ (Option.mem_toList.2 hname))
    rw [Function.comp_apply, ← valueIn_of_isPrefix hmem hlonger,
      nameIn?_valueIn_of_isPrefix hmem hlonger]
    rfl
  have harguments : s.arguments.map (Argument.operand longer) =
      s.arguments.map (Argument.operand names) := by
    refine List.map_congr_left fun arg harg => Argument.operand_of_isPrefix ?_ hlonger
    exact fun name hname => hnames (List.mem_append_right _ (List.mem_flatMap.2 ⟨arg, harg, hname⟩))
  rw [placement, placement, hname, Sentence.instruction, Sentence.instruction, hvalue, harguments]

/-- Lines that spell sentences and define each value once are read as the instructions of the
sentences, each placed in turn, with the names in the order of their first appearance. -/
theorem readLines_eq (h : table.Represents names defined) (units : UnitBuilder)
    {lines : List Line} {sentences : List Sentence}
    (hspelled : List.Forall₂ Sentence.SpelledBy sentences (lines.map Line.kinds))
    (hdistinct : (definedValues (nameOrder names sentences) sentences).Nodup)
    (hnew : ∀ id ∈ definedValues (nameOrder names sentences) sentences, id ∉ defined) :
    (readLines table units lines).map (fun r => (r.1.toList, r.2)) =
      (units.placeAll (List.zipWith (placement (nameOrder names sentences)) lines sentences)).map
        fun placed => (nameOrder names sentences, placed) := by
  induction lines generalizing table names defined units sentences with
  | nil =>
      cases hspelled
      rw [readLines, List.zipWith_nil_left, UnitBuilder.placeAll]
      exact congrArg (fun names => Except.ok (names, units)) h.toList_eq
  | cons line rest ih =>
      cases hspelled with
      | @cons s _ sentences _ hs hsentences =>
          -- The names of further lines leave the values of the names of this line as they are.
          have hsubset := subset_foldl_appendNew names s.names
          have hprefix := prefix_nameOrder (s.names.foldl appendNew names) sentences
          rw [definedValues_cons, nameOrder_cons, Sentence.value?_of_isPrefix hsubset hprefix]
            at hdistinct hnew
          obtain ⟨next, hread, hnext⟩ := readLine_eq h hs fun id hid =>
            hnew id (List.mem_append_left _ (Option.mem_toList.2 hid))
          have hplaced := placement_of_isPrefix line hsubset hprefix
          rw [List.zipWith_cons_cons, UnitBuilder.placeAll, nameOrder_cons, hplaced, readLines,
            hread, placement]
          dsimp only
          cases units.place line.first.line (s.valueName? (s.names.foldl appendNew names))
              (s.instruction (s.names.foldl appendNew names) line.span) with
          | error e => rfl
          | ok placed =>
              refine ih hnext placed hsentences (List.Nodup.of_append_right hdistinct) ?_
              intro id hid hdefined
              rcases List.mem_append.1 hdefined with hvalue | hdefined
              · exact List.disjoint_of_nodup_append hdistinct hvalue hid
              · exact hnew id (List.mem_append_right _ hid) hdefined

/-- Lines that can be read spell sentences that define each value once. -/
theorem exists_sentences_of_readLines (h : table.Represents names defined) {units : UnitBuilder}
    {lines : List Line} {r : NameTable × UnitBuilder}
    (hread : readLines table units lines = .ok r) :
    ∃ sentences, List.Forall₂ Sentence.SpelledBy sentences (lines.map Line.kinds) ∧
      (definedValues (nameOrder names sentences) sentences).Nodup ∧
      ∀ id ∈ definedValues (nameOrder names sentences) sentences, id ∉ defined := by
  induction lines generalizing table names defined units with
  | nil => exact ⟨[], .nil, List.nodup_nil, nofun⟩
  | cons line rest ih =>
      rw [readLines] at hread
      split at hread
      · cases hread
      · next table' inst name hline =>
          split at hread
          · cases hread
          · next placed hplaced =>
              obtain ⟨s, hs⟩ := exists_spelledBy_of_readLine hline
              have hvalue := not_mem_of_readLine h hs hline
              -- What the line was read as is known, so the table behind it represents its names.
              obtain ⟨next, hnext, hrepresents⟩ := readLine_eq h hs hvalue
              rw [hline] at hnext
              cases hnext
              obtain ⟨sentences, hspelled, hdistinct, hnew⟩ := ih hrepresents hread
              refine ⟨s :: sentences, .cons hs hspelled, ?_⟩
              rw [definedValues_cons, nameOrder_cons, Sentence.value?_of_isPrefix
                (subset_foldl_appendNew names s.names) (prefix_nameOrder _ sentences)]
              constructor
              · rw [List.nodup_append']
                have hone : (s.value? (s.names.foldl appendNew names)).toList.Nodup := by
                  cases s.value? (s.names.foldl appendNew names) <;> simp
                refine ⟨hone, hdistinct, fun id hid hmem => ?_⟩
                exact hnew id hmem (List.mem_append_left _ hid)
              · intro id hid
                rcases List.mem_append.1 hid with hid | hid
                · exact hvalue id (Option.mem_toList.1 hid)
                · exact fun hdefined => hnew id hid (List.mem_append_right _ hdefined)

/-! ## Reading a text -/

/-- The instructions of sentences on the lines of a text, with the values that the names have in the
order of their first appearance. -/
def placements (text : String) (sentences : List Sentence) : List Placement :=
  List.zipWith (placement (nameOrder [] sentences)) (lines (tokens text)) sentences

/-- A text whose rows spell sentences that define each value once is read as their instructions, put
into units, with the names in the order of their first appearance. -/
theorem parse_eq {text : String} {sentences : List Sentence}
    (hspelled : List.Forall₂ Sentence.SpelledBy sentences (rows (kinds text)))
    (hdistinct : (definedValues (nameOrder [] sentences) sentences).Nodup) :
    Module.parse text =
      ((UnitBuilder.placeAll {} (placements text sentences)).bind UnitBuilder.finish).map
        fun units => ⟨units, nameOrder [] sentences⟩ := by
  have hparse : Module.parse text =
      ((readLines {} {} (lines (tokens text))).map fun r => (r.1.toList, r.2)).bind
        fun r => r.2.finish.map fun units => ⟨units, r.1⟩ := by
    rw [Module.parse]
    cases readLines {} {} (lines (tokens text)) <;> rfl
  rw [← map_kinds_lines] at hspelled
  rw [hparse, readLines_eq NameTable.represents_empty {} hspelled hdistinct
    fun id _ => List.not_mem_nil, ← placements]
  cases UnitBuilder.placeAll {} (placements text sentences) <;> rfl

/-- The first unit of a module is the one outside functions. -/
theorem head?_units_of_parse {text : String} {m : Module} (h : Module.parse text = .ok m) :
    m.units.head?.map (·.name) = some outsideName := by
  rw [Module.parse] at h
  split at h
  · cases h
  · next names units _ =>
      rw [UnitBuilder.finish] at h
      cases hopened : units.opened with
      | some f =>
          rw [hopened] at h
          cases h
      | none =>
          rw [hopened] at h
          cases h
          rfl

/-- The opcode of a sentence is that of its instruction. -/
theorem Sentence.opcode_instruction (s : Sentence) (span : Span) :
    (s.instruction names span).opcode = s.opcode := by
  rw [Sentence.instruction]
  cases s.value? names <;> rfl

/-- What does not depend on lines can be read off sentences instead of their placements. -/
theorem map_placements {α : Type} {text : String} {sentences : List Sentence}
    (hspelled : List.Forall₂ Sentence.SpelledBy sentences (rows (kinds text)))
    (ofPlacement : Placement → α) (ofSentence : Sentence → α)
    (hof : ∀ line s, ofPlacement (placement (nameOrder [] sentences) line s) = ofSentence s) :
    (placements text sentences).map ofPlacement = sentences.map ofSentence := by
  have hlength : (lines (tokens text)).length = sentences.length := by
    rw [hspelled.length_eq, ← map_kinds_lines, List.length_map]
  rw [placements, List.map_zipWith]
  simp only [hof]
  rw [← List.map_uncurry_zip_eq_zipWith]
  show (List.zip (lines (tokens text)) sentences).map (ofSentence ∘ Prod.snd) = _
  rw [← List.map_map, List.map_snd_zip (le_of_eq hlength.symm)]

/-- A text that is read spells sentences that define each value once. -/
theorem exists_sentences_of_parse {text : String} {m : Module} (h : Module.parse text = .ok m) :
    ∃ sentences, List.Forall₂ Sentence.SpelledBy sentences (rows (kinds text)) ∧
      (definedValues (nameOrder [] sentences) sentences).Nodup := by
  rw [Module.parse] at h
  split at h
  · cases h
  · next hread =>
      obtain ⟨sentences, hspelled, hdistinct, -⟩ :=
        exists_sentences_of_readLines NameTable.represents_empty hread
      rw [map_kinds_lines] at hspelled
      exact ⟨sentences, hspelled, hdistinct⟩

/-- Sentences that spell a text and define each value once are read where functions alternate with
ends of functions among them. -/
theorem exists_parse_iff {text : String} {sentences : List Sentence}
    (hspelled : List.Forall₂ Sentence.SpelledBy sentences (rows (kinds text)))
    (hdistinct : (definedValues (nameOrder [] sentences) sentences).Nodup) :
    (∃ m, Module.parse text = .ok m) ↔ FunctionsAlternate (sentences.map Sentence.opcode) := by
  have hplace := UnitBuilder.exists_placeAll_iff {} (placements text sentences)
  rw [map_placements hspelled (·.instruction.opcode) Sentence.opcode
    fun line s => s.opcode_instruction line.span, UnitBuilder.due_of_not_opened rfl] at hplace
  simp only [List.nil_append] at hplace
  rw [FunctionsAlternate, ← hplace, parse_eq hspelled hdistinct]
  cases UnitBuilder.placeAll {} (placements text sentences) with
  | error e => exact iff_of_false nofun nofun
  | ok placed =>
      have hfinish : (∃ m, (placed.finish.map fun units =>
          (⟨units, nameOrder [] sentences⟩ : Module)) = .ok m) ↔ placed.opened = none := by
        rw [← UnitBuilder.exists_finish_iff]
        cases placed.finish <;> simp [Except.map]
      simpa [Except.bind] using hfinish

/-! ## The names in a text -/

/-- The name in a token, if it has one. -/
def TokenKind.name? : TokenKind → Option String
  | .id name => some name
  | _ => none

/-- The names in the tokens of a line are those in its sentence. -/
theorem Sentence.SpelledBy.filterMap_name? {s : Sentence} {row : List TokenKind}
    (h : s.SpelledBy row) : row.filterMap TokenKind.name? = s.names := by
  obtain ⟨word, -, rfl⟩ := h
  have hresult : (definition s.result).filterMap TokenKind.name? = s.result.toList := by
    cases s.result <;> rfl
  have harguments (arguments : List Argument) :
      (arguments.map Argument.kind).filterMap TokenKind.name? =
        arguments.flatMap Argument.names := by
    induction arguments with
    | nil => rfl
    | cons arg rest ih =>
        rw [List.map_cons, List.flatMap_cons, ← ih]
        cases arg <;> rfl
  rw [List.filterMap_append, hresult, Sentence.names, ← harguments]
  rfl

/-- The names in rows are those in the sentences that they spell. -/
theorem filterMap_name?_flatten {sentences : List Sentence} {rows : List (List TokenKind)}
    (h : List.Forall₂ Sentence.SpelledBy sentences rows) :
    rows.flatten.filterMap TokenKind.name? = sentences.flatMap Sentence.names := by
  induction h with
  | nil => rfl
  | cons hs _ ih =>
      rw [List.flatten_cons, List.filterMap_append, hs.filterMap_name?, ih, List.flatMap_cons]

/-- The names among the tokens of a text are those in its rows. -/
theorem filterMap_name?_tokens (text : String) :
    (tokens text).filterMap (·.kind.name?) =
      (rows (kinds text)).flatten.filterMap TokenKind.name? := by
  have hnewline : (fun kind => if decide (kind ≠ TokenKind.newline) then kind.name? else none) =
      TokenKind.name? := by
    funext kind
    cases kind <;> rfl
  have hkinds := congrArg (List.filterMap TokenKind.name?) (map_kind_tokens text)
  rw [List.filterMap_map, List.filterMap_append] at hkinds
  rw [rows_eq, flatten_rowsBehind, List.nil_append, List.filterMap_filter, hnewline]
  exact hkinds.trans (List.append_nil _)

/-- The names in the sentences of a text are those among its tokens, each once. -/
theorem nameOrder_eq_eraseDups {text : String} {sentences : List Sentence}
    (hspelled : List.Forall₂ Sentence.SpelledBy sentences (rows (kinds text))) :
    nameOrder [] sentences = ((tokens text).filterMap (·.kind.name?)).eraseDups := by
  rw [nameOrder, foldl_appendNew_nil, ← filterMap_name?_flatten hspelled, filterMap_name?_tokens]

/-- There are no more different names in a text than words of 32 bits. -/
def NamesFit (text : String) : Prop :=
  ((tokens text).filterMap (·.kind.name?)).eraseDups.length ≤ 2 ^ 32

instance (text : String) : Decidable (NamesFit text) := inferInstanceAs (Decidable (_ ≤ _))

/-- Sentences that define each value once define each name once, and conversely if the values of
their names are different. -/
theorem nodup_definedValues {sentences : List Sentence}
    (hfit : (nameOrder [] sentences).length ≤ 2 ^ 32) :
    (definedValues (nameOrder [] sentences) sentences).Nodup ↔ (definedNames sentences).Nodup := by
  refine ⟨List.Nodup.of_map _, List.Nodup.map_on fun name hname other hother hvalue => ?_⟩
  have hmem {name : String} (h : name ∈ definedNames sentences) : name ∈ nameOrder [] sentences := by
    obtain ⟨s, hs, hname⟩ := exists_names_of_mem_definedNames h
    exact mem_foldl_appendNew.2 (Or.inr (List.mem_flatMap.2 ⟨s, hs, hname⟩))
  exact eq_of_valueIn_eq hfit (hmem hname) (hmem hother) hvalue

/-! ## Which texts are read -/

/-- No token of a sentence is malformed. -/
theorem Sentence.SpelledBy.ne_malformed {s : Sentence} {row : List TokenKind} (h : s.SpelledBy row)
    {kind : TokenKind} (hkind : kind ∈ row) (e : LexicalError) : kind ≠ .malformed e := by
  obtain ⟨word, -, rfl⟩ := h
  rintro rfl
  rcases List.mem_append.1 hkind with hdefinition | hoperation
  · cases hresult : s.result <;> simp [hresult, Sentence.definition] at hdefinition
  · rcases List.mem_cons.1 hoperation with hword | hargument
    · cases hword
    · obtain ⟨arg, -, harg⟩ := List.mem_map.1 hargument
      cases arg <;> cases harg

/-- No token of a text whose rows spell sentences is malformed. -/
theorem ne_malformed_of_spelledBy {text : String} {sentences : List Sentence}
    (hspelled : List.Forall₂ Sentence.SpelledBy sentences (rows (kinds text))) :
    ∀ kind ∈ kinds text, ∀ e, kind ≠ .malformed e := by
  intro kind hkind e
  by_cases hnewline : kind = .newline
  · rw [hnewline]
    nofun
  · obtain ⟨row, hrow, hmem⟩ := exists_mem_rows_iff.2 ⟨hkind, hnewline⟩
    obtain ⟨i, hi, rfl⟩ := List.getElem_of_mem hrow
    have hs := hspelled.get (hspelled.length_eq ▸ hi) hi
    exact hs.ne_malformed hmem e

/-- The grammar of listings: no token is malformed, each line that is not blank spells a sentence,
no name is defined twice, and functions alternate with ends of functions. -/
def IsListing (text : String) : Prop :=
  (∀ kind ∈ kinds text, ∀ e, kind ≠ .malformed e) ∧
    ∃ sentences, List.Forall₂ Sentence.SpelledBy sentences (rows (kinds text)) ∧
      (definedNames sentences).Nodup ∧ FunctionsAlternate (sentences.map Sentence.opcode)

/-- A text that is read is a listing. -/
theorem isListing_of_parse {text : String} {m : Module} (h : Module.parse text = .ok m) :
    IsListing text := by
  obtain ⟨sentences, hspelled, hdistinct⟩ := exists_sentences_of_parse h
  exact ⟨ne_malformed_of_spelledBy hspelled, sentences, hspelled, hdistinct.of_map,
    (exists_parse_iff hspelled hdistinct).1 ⟨m, h⟩⟩

/-- A text that is read is a listing, and a listing is read if its names have different values:
beyond `2 ^ 32` names, two that are defined may have the same value. -/
theorem parse_accepts_iff (text : String) :
    ((∃ m, Module.parse text = .ok m) → IsListing text) ∧
      (NamesFit text → ((∃ m, Module.parse text = .ok m) ↔ IsListing text)) := by
  have hlisting : (∃ m, Module.parse text = .ok m) → IsListing text :=
    fun ⟨_, hm⟩ => isListing_of_parse hm
  refine ⟨hlisting, fun hfit => ⟨hlisting, fun h => ?_⟩⟩
  obtain ⟨-, sentences, hspelled, hdistinct, halternate⟩ := h
  have hnames : (nameOrder [] sentences).length ≤ 2 ^ 32 :=
    nameOrder_eq_eraseDups hspelled ▸ hfit
  exact (exists_parse_iff hspelled ((nodup_definedValues hnames).2 hdistinct)).2 halternate

/-- Two functions and a type between them, with a blank line and comments. -/
def interleaved : String :=
  "%v = OpTypeVoid\n\n%f = OpFunction %v ; one\n  %l = OpLabel\nOpFunctionEnd\r\n// two\n" ++
    "%i = OpTypeInt 32 1\n%g = OpFunction %v\nOpFunctionEnd"

theorem spelledBy_interleaved :
    List.Forall₂ Sentence.SpelledBy
      [⟨some "v", .typeVoid, []⟩, ⟨some "f", .function, [.id "v"]⟩, ⟨some "l", .label, []⟩,
        ⟨none, .functionEnd, []⟩, ⟨some "i", .typeInt, [.integer 32, .integer 1]⟩,
        ⟨some "g", .function, [.id "v"]⟩, ⟨none, .functionEnd, []⟩] (rows (kinds interleaved)) := by
  have hrows : rows (kinds interleaved) =
      [[.id "v", .equals, .word "OpTypeVoid"],
        [.id "f", .equals, .word "OpFunction", .id "v"], [.id "l", .equals, .word "OpLabel"],
        [.word "OpFunctionEnd"],
        [.id "i", .equals, .word "OpTypeInt", .integer 32, .integer 1],
        [.id "g", .equals, .word "OpFunction", .id "v"], [.word "OpFunctionEnd"]] := by
    decide +kernel
  rw [hrows]
  exact .cons ⟨_, Or.inr rfl, rfl⟩ (.cons ⟨_, Or.inr rfl, rfl⟩ (.cons ⟨_, Or.inr rfl, rfl⟩
    (.cons ⟨_, Or.inr rfl, rfl⟩ (.cons ⟨_, Or.inr rfl, rfl⟩ (.cons ⟨_, Or.inr rfl, rfl⟩
      (.cons ⟨_, Or.inr rfl, rfl⟩ .nil))))))

theorem namesFit_interleaved : NamesFit interleaved := by
  rw [NamesFit, ← nameOrder_eq_eraseDups spelledBy_interleaved]
  decide

/-- A listing with five names is read. -/
theorem parse_accepts_iff_interleaved :
    NamesFit interleaved ∧ IsListing interleaved ∧ ∃ m, Module.parse interleaved = .ok m := by
  have hlisting : IsListing interleaved :=
    ⟨ne_malformed_of_spelledBy spelledBy_interleaved, _, spelledBy_interleaved, by decide, 2,
      by decide⟩
  exact ⟨namesFit_interleaved, hlisting,
    ((parse_accepts_iff interleaved).2 namesFit_interleaved).2 hlisting⟩

end Listing

end SpirvLegality
