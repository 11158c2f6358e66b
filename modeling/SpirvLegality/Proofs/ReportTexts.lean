import SpirvLegality.Proofs.FeatureNames
import SpirvLegality.Report.Resolution
import SpirvLegality.Text.Word

/-!
# Reading reports back

The text of a report on a resolution says everything that is in the report, as long as the names of
units hold no line feeds. A text of lines gives its lines back (`Text.ofLines_inj`), and a line says
what it states (`ReportLine.text_injective`): no declaration looks like a heading, and no heading of
a unit like that of the module. What a section declares goes up to the next heading, so the sections
are told apart one after the other (`ResolutionReport.sections_inj`), and a report without sections
begins with no heading. Hence two reports with the same text are the same report
(`ResolutionReport.text_tells_all`).
-/

namespace SpirvLegality

/-! ## Lines of a text -/

namespace Text

/-- A text of lines holds the characters of each line and then a line feed. -/
theorem toList_ofLines (lines : List String) :
    (ofLines lines).toList = lines.flatMap fun line => line.toList ++ ['\n'] := by
  have hbehind (out : String) : (lines.foldl (fun out line => out ++ line ++ "\n") out).toList =
      out.toList ++ lines.flatMap fun line => line.toList ++ ['\n'] := by
    induction lines generalizing out with
    | nil => simp
    | cons line lines ih =>
        rw [List.foldl_cons, ih, List.flatMap_cons, String.toList_append, String.toList_append,
          List.append_assoc, List.append_assoc, List.append_assoc]
        rfl
  exact hbehind ""

/-- Lines without line feeds can be read off the text. -/
theorem ofLines_inj {lines lines' : List String} (hlines : ∀ line ∈ lines, '\n' ∉ line.toList)
    (hlines' : ∀ line ∈ lines', '\n' ∉ line.toList) (h : ofLines lines = ofLines lines') :
    lines = lines' := by
  rw [← String.toList_inj, toList_ofLines, toList_ofLines] at h
  induction lines generalizing lines' with
  | nil =>
      cases lines' with
      | nil => rfl
      | cons line' lines' => simp at h
  | cons line lines ih =>
      cases lines' with
      | nil => simp at h
      | cons line' lines' =>
          obtain ⟨hline, hlines⟩ := List.forall_mem_cons.1 hlines
          obtain ⟨hline', hlines'⟩ := List.forall_mem_cons.1 hlines'
          have hkind {text : List Char} (htext : '\n' ∉ text) : ∀ c ∈ text, (c != '\n') = true :=
            fun c hc => bne_iff_ne.2 fun heq => htext (heq ▸ hc)
          rw [List.flatMap_cons, List.flatMap_cons, List.append_assoc, List.append_assoc] at h
          obtain ⟨hfirst, hrest⟩ := append_inj_of_kind (hkind hline) (hkind hline') (by simp)
            (by simp) h
          rw [String.toList_inj.1 hfirst, ih hlines hlines' (List.append_cancel_left hrest)]

end Text

/-! ## What a line states -/

theorem Capability.name_injective : Function.Injective Capability.name := fun _ _ h =>
  Option.some.inj ((ofName?_eq_some_iff.2 h).symm.trans (ofName?_eq_some_iff.2 rfl))

theorem Extension.name_injective : Function.Injective Extension.name := fun _ _ h =>
  Option.some.inj ((ofName?_eq_some_iff.2 h).symm.trans (ofName?_eq_some_iff.2 rfl))

/-- What a line of a report can state: the heading of a unit or of the module, or a declaration. -/
inductive ReportLine where
  | unit (name : String)
  | module
  | capability (cap : Capability)
  | extension (ext : Extension)

namespace ReportLine

/-- A line in writing. -/
def text : ReportLine → String
  | .unit name => "; unit " ++ name
  | .module => "; module"
  | .capability cap => "OpCapability " ++ cap.name
  | .extension ext => "OpExtension \"" ++ ext.name ++ "\""

/-- Whether a line declares something. -/
def isDeclaration : ReportLine → Bool
  | .unit _ | .module => false
  | .capability _ | .extension _ => true

/-- Whether a line declares a capability. -/
def isCapability : ReportLine → Bool
  | .capability _ => true
  | _ => false

/-- The third character of a line tells what kind of line it is. -/
def mark : ReportLine → Char
  | .unit _ => 'u'
  | .module => 'm'
  | .capability _ => 'C'
  | .extension _ => 'E'

theorem getElem?_text (line : ReportLine) : line.text.toList[2]? = some line.mark := by
  cases line with
  | unit name =>
      show ("; unit " ++ name).toList[2]? = some 'u'
      simp
  | module => rfl
  | capability cap =>
      show ("OpCapability " ++ cap.name).toList[2]? = some 'C'
      simp
  | extension ext =>
      show ("OpExtension \"" ++ ext.name ++ "\"").toList[2]? = some 'E'
      simp

/-- Lines that read the same state the same. -/
theorem text_injective : Function.Injective text := by
  intro line line' h
  have hmark : some line.mark = some line'.mark := by
    rw [← getElem?_text, ← getElem?_text, h]
  cases line with
  | unit name =>
      cases line' with
      | unit name' => exact congrArg unit ((String.append_right_inj _).1 h)
      | _ => simp [mark] at hmark
  | module =>
      cases line' with
      | module => rfl
      | _ => simp [mark] at hmark
  | capability cap =>
      cases line' with
      | capability cap' =>
          exact congrArg capability (Capability.name_injective ((String.append_right_inj _).1 h))
      | _ => simp [mark] at hmark
  | extension ext =>
      cases line' with
      | extension ext' =>
          have hname := (String.append_right_inj _).1 ((String.append_left_inj _).1 h)
          exact congrArg extension (Extension.name_injective hname)
      | _ => simp [mark] at hmark

/-- A line holds no line feed, unless it is the heading of a unit that has one in its name. -/
theorem newline_not_mem_text {line : ReportLine}
    (h : ∀ name, line = .unit name → '\n' ∉ name.toList) : '\n' ∉ line.text.toList := by
  have hname {name : String} (hall : name.toList.all Text.isNameChar = true) :
      '\n' ∉ name.toList := fun hmem => absurd (List.all_eq_true.1 hall _ hmem) (by decide)
  cases line with
  | unit name =>
      show '\n' ∉ ("; unit " ++ name).toList
      simp [h name rfl]
  | module => decide
  | capability cap =>
      show '\n' ∉ ("OpCapability " ++ cap.name).toList
      simp [hname cap.all_name.1]
  | extension ext =>
      show '\n' ∉ ("OpExtension \"" ++ ext.name ++ "\"").toList
      simp [hname ext.all_name.1]

end ReportLine

/-! ## What the lines of a report state -/

namespace Declarations

/-- The lines of some declarations. -/
def statements (d : Declarations) : List ReportLine :=
  d.capabilities.map .capability ++ d.extensions.map .extension

theorem map_text_statements (d : Declarations) : d.statements.map ReportLine.text = d.lines := by
  rw [statements, List.map_append, List.map_map, List.map_map]
  rfl

theorem isDeclaration_of_mem_statements {d : Declarations} :
    ∀ line ∈ d.statements, line.isDeclaration = true := by
  simp [statements, ReportLine.isDeclaration, or_imp, forall_and]

/-- The capabilities end where the extensions begin. -/
theorem statements_injective : Function.Injective statements := by
  intro d d' h
  have hcapabilities (caps : List Capability) :
      ∀ line ∈ caps.map ReportLine.capability, line.isCapability = true := by
    simp [ReportLine.isCapability]
  have hextensions (exts : List Extension) :
      ∀ line ∈ (exts.map ReportLine.extension).head?, line.isCapability = false := by
    cases exts <;> simp [ReportLine.isCapability]
  obtain ⟨hcaps, hexts⟩ := Text.append_inj_of_kind (hcapabilities _) (hcapabilities _)
    (hextensions _) (hextensions _) h
  cases d
  cases d'
  exact congrArg₂ Declarations.mk
    (List.map_injective_iff.2 (fun _ _ => ReportLine.capability.inj) hcaps)
    (List.map_injective_iff.2 (fun _ _ => ReportLine.extension.inj) hexts)

/-- Some declarations end where a heading or the text ends. -/
theorem statements_append_inj {d d' : Declarations} {rest rest' : List ReportLine}
    (hrest : ∀ line ∈ rest.head?, line.isDeclaration = false)
    (hrest' : ∀ line ∈ rest'.head?, line.isDeclaration = false)
    (h : d.statements ++ rest = d'.statements ++ rest') : d = d' ∧ rest = rest' :=
  (Text.append_inj_of_kind isDeclaration_of_mem_statements isDeclaration_of_mem_statements hrest
    hrest' h).imp_left fun heq => statements_injective heq

end Declarations

namespace ResolutionReport

/-- The lines of the units, each under its heading, and then those of the module under its own. -/
def sections (units : List (String × Declarations)) (module : Declarations) : List ReportLine :=
  units.flatMap (fun unit => .unit unit.1 :: unit.2.statements) ++ .module :: module.statements

/-- The lines of a report. -/
def statements (report : ResolutionReport) : List ReportLine :=
  match report.units with
  | none => report.module.statements
  | some units => sections units report.module

theorem map_text_statements (report : ResolutionReport) :
    report.statements.map ReportLine.text = report.lines := by
  obtain ⟨units | units, module⟩ := report
  · exact module.map_text_statements
  · simp only [statements, sections, lines, List.map_append, List.map_flatMap, List.map_cons,
      Declarations.map_text_statements]
    rfl

theorem sections_cons (unit : String × Declarations) (units : List (String × Declarations))
    (module : Declarations) : sections (unit :: units) module =
      .unit unit.1 :: (unit.2.statements ++ sections units module) := by
  rw [sections, List.flatMap_cons, List.cons_append, List.cons_append, List.append_assoc, sections]

/-- Sections begin with a heading. -/
theorem isDeclaration_head_sections (units : List (String × Declarations))
    (module : Declarations) :
    ∀ line ∈ (sections units module).head?, line.isDeclaration = false := by
  cases units with
  | nil => simp [sections, ReportLine.isDeclaration]
  | cons unit units => simp [sections_cons, ReportLine.isDeclaration]

/-- Sections are told apart by their headings. -/
theorem sections_inj {units units' : List (String × Declarations)} {module module' : Declarations}
    (h : sections units module = sections units' module') : units = units' ∧ module = module' := by
  induction units generalizing units' with
  | nil =>
      cases units' with
      | nil => exact ⟨rfl, Declarations.statements_injective (List.cons.inj h).2⟩
      | cons unit' units' => cases (List.cons.inj h).1
  | cons unit units ih =>
      cases units' with
      | nil => cases (List.cons.inj h).1
      | cons unit' units' =>
          rw [sections_cons, sections_cons] at h
          obtain ⟨hname, hrest⟩ := List.cons.inj h
          obtain ⟨hdeclared, hrest⟩ := Declarations.statements_append_inj
            (isDeclaration_head_sections units module) (isDeclaration_head_sections units' module')
            hrest
          obtain ⟨rfl, rfl⟩ := ih hrest
          exact ⟨congrArg (· :: units) (Prod.ext (ReportLine.unit.inj hname) hdeclared), rfl⟩

/-- Declarations without headings are told apart from sections. -/
theorem statements_ne_sections (d : Declarations) (units : List (String × Declarations))
    (module : Declarations) : d.statements ≠ sections units module := by
  intro h
  have hempty : d.statements ++ [] = Declarations.empty.statements ++ sections units module := by
    rw [List.append_nil, h]
    rfl
  obtain ⟨-, hnil⟩ := Declarations.statements_append_inj (by simp)
    (isDeclaration_head_sections units module) hempty
  cases units with
  | nil => cases hnil
  | cons unit units => cases hnil

/-- Reports that state the same are the same. -/
theorem statements_injective : Function.Injective statements := by
  rintro ⟨units | units, module⟩ ⟨units' | units', module'⟩ h
  · exact congrArg (ResolutionReport.mk none) (Declarations.statements_injective h)
  · exact absurd h (statements_ne_sections module units' module')
  · exact absurd h.symm (statements_ne_sections module' units module)
  · obtain ⟨rfl, rfl⟩ := sections_inj h
    rfl

/-- The heading of a unit is there because the report lists the unit. -/
theorem exists_unit_of_mem_statements {report : ResolutionReport} {name : String}
    (h : .unit name ∈ report.statements) :
    ∃ units, report.units = some units ∧ ∃ unit ∈ units, unit.1 = name := by
  have hdeclared (d : Declarations) : .unit name ∉ d.statements := fun hmem =>
    Bool.false_ne_true (Declarations.isDeclaration_of_mem_statements _ hmem)
  obtain ⟨units | units, module⟩ := report
  · exact absurd h (hdeclared module)
  · refine ⟨units, rfl, ?_⟩
    rcases List.mem_append.1 h with hunits | hmodule
    · obtain ⟨unit, hunit, hmem⟩ := List.mem_flatMap.1 hunits
      rcases List.mem_cons.1 hmem with hname | hmem
      · exact ⟨unit, hunit, (ReportLine.unit.inj hname).symm⟩
      · exact absurd hmem (hdeclared unit.2)
    · rcases List.mem_cons.1 hmodule with hname | hmem
      · cases hname
      · exact absurd hmem (hdeclared module)

/-! ## The text of a report -/

/-- The names of the units that a report lists hold no line feeds. -/
def NamesInLine (report : ResolutionReport) : Prop :=
  ∀ units, report.units = some units → ∀ unit ∈ units, '\n' ∉ unit.1.toList

theorem NamesInLine.newline_not_mem {report : ResolutionReport} (h : report.NamesInLine) :
    ∀ line ∈ report.lines, '\n' ∉ line.toList := by
  rw [← map_text_statements]
  refine List.forall_mem_map.2 fun line hline => ReportLine.newline_not_mem_text ?_
  rintro name rfl
  obtain ⟨units, hunits, unit, hunit, rfl⟩ := exists_unit_of_mem_statements hline
  exact h units hunits unit hunit

/-- Reports with the same text are the same. -/
theorem text_inj {report other : ResolutionReport} (h : report.NamesInLine)
    (hother : other.NamesInLine) : report.text = other.text ↔ report = other := by
  refine ⟨fun htext => statements_injective ?_, congrArg text⟩
  have hlines := Text.ofLines_inj h.newline_not_mem hother.newline_not_mem htext
  rw [← map_text_statements, ← map_text_statements] at hlines
  exact List.map_injective_iff.2 ReportLine.text_injective hlines

theorem of_inj {module module' : Declarations} {units units' : List (String × Declarations)}
    {perUnit perUnit' : Bool} : of module units perUnit = of module' units' perUnit' ↔
      perUnit = perUnit' ∧ (perUnit = true → units = units') ∧ module = module' := by
  cases perUnit <;> cases perUnit' <;> simp [of]

/-- Two reports have the same text just where they are the same: both list units or both do not, the
units that they list are the same in the same order, by name and by what they declare, and so are
the capabilities and the extensions of the module. -/
theorem text_tells_all {module module' : Declarations} {units units' : List (String × Declarations)}
    {perUnit perUnit' : Bool} (h : (of module units perUnit).NamesInLine)
    (h' : (of module' units' perUnit').NamesInLine) :
    (of module units perUnit).text = (of module' units' perUnit').text ↔
      perUnit = perUnit' ∧ (perUnit = true → units = units') ∧ module = module' :=
  (text_inj h h').trans of_inj

/-- A unit may be called like the heading of the module, and still it makes a difference whether it
or the module declares something. -/
theorem text_tells_all_headingName :
    (of ⟨[.shader], []⟩ [("; module", {})] true).NamesInLine ∧
      (of {} [("; module", ⟨[.shader], []⟩)] true).NamesInLine ∧
      (of ⟨[.shader], []⟩ [("; module", {})] true).text ≠
        (of {} [("; module", ⟨[.shader], []⟩)] true).text := by
  have hnames (module declared : Declarations) :
      (of module [("; module", declared)] true).NamesInLine := by
    rintro units ⟨⟩ unit hunit
    rw [List.mem_singleton.1 hunit]
    exact (by decide : '\n' ∉ "; module".toList)
  refine ⟨hnames _ _, hnames _ _, fun h => ?_⟩
  obtain ⟨-, -, hmodule⟩ := (text_tells_all (hnames _ _) (hnames _ _)).1 h
  cases hmodule

end ResolutionReport

end SpirvLegality
