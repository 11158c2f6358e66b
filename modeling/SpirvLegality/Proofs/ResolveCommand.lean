import Mathlib.Data.List.TakeDrop
import SpirvLegality.CommandLine.Run
import SpirvLegality.Proofs.JsonTexts
import SpirvLegality.Proofs.ReportTexts
import SpirvLegality.Proofs.Resolution
import SpirvLegality.Proofs.ValidatedGraph

/-!
# Resolving from the command line

A command that resolves a file goes through the stages of the library: it reads the listing,
describes the target, builds the environment and resolves the module. It succeeds exactly where all
stages do, and then reports what `Module.resolve` and `CodeUnit.resolve` find, in either form with
every name and every declaration (`Format.Shows`); otherwise it prints the failure of the first
stage that fails and nothing else (`resolve_reports`). Every file, target, form and choice of units
can be asked for (`Invocation.parse?_resolveArguments`).
-/

namespace SpirvLegality

/-- The environment of a target on the graph of the capability table, which has to be accepted. -/
def Environment.build (target : Target) : Except GraphError Environment :=
  (PrerequisiteGraph.ofTable Capability.table).map fun graph => .ofTarget target graph

/-- The capability table is accepted, so every target has its environment. -/
theorem Environment.build_eq (target : Target) : build target = .ok (.ofTarget target) := by
  rw [build, PrerequisiteGraph.ofTable_standard]
  rfl

namespace CommandLine

open Text Text.Layout

/-! ## Arguments that ask for a resolution -/

/-- The name of a form. -/
def Format.name : Format → String
  | .pretty => "pretty"
  | .json => "json"

theorem Format.ofName?_name (format : Format) : ofName? format.name = some format := by
  cases format <;> rfl

/-- An option and its value in one argument. -/
def joined (name value : String) : String := "--" ++ name ++ "=" ++ value

/-- A value begins behind the first equals sign, which is none of the name. -/
theorem Argument.of_joined {name : String} (h : '=' ∉ name.toList) (value : String) :
    of (joined name value) = .long name (some value) := by
  have hletters : (joined name value).toList =
      '-' :: '-' :: (name.toList ++ '=' :: value.toList) := by
    simp [joined]
  have hspan : (name.toList ++ '=' :: value.toList).span (· != '=') =
      (name.toList, '=' :: value.toList) := by
    have hname : ∀ c ∈ name.toList, (c != '=') = true := by
      intro c hc
      exact bne_iff_ne.2 fun heq => h (heq ▸ hc)
    rw [List.span_eq_takeWhile_dropWhile, Text.takeWhile_append_of_kind hname (by simp),
      Text.dropWhile_append_of_kind hname (by simp)]
  -- Behind the hyphens stands a further character, so the argument is not the separator.
  obtain ⟨c, rest, hrest⟩ : ∃ c rest, name.toList ++ '=' :: value.toList = c :: rest :=
    List.exists_cons_of_ne_nil (by simp)
  rw [hrest] at hletters hspan
  rw [of, hletters]
  simp only [hspan, String.ofList_toList]

/-- The options of a command that resolves a file. -/
def resolveNames : OptionNames := ⟨["verbose", "per-unit"], ["triple", "features", "format"]⟩

namespace Arguments

variable {names : OptionNames} {args : Arguments} {name : String}

/-- An option that may be given is read with its value. -/
theorem read_joined (hequals : '=' ∉ name.toList) (hname : name ∈ names.valued)
    (hnew : args.values.lookup name = none) (value : Option String) (rest : List String) :
    read names args ((value.map (joined name)).toList ++ rest) =
      read names { args with values := (value.map (name, ·)).toList ++ args.values } rest := by
  cases value with
  | none => rfl
  | some value =>
      simp [read, Argument.of_joined hequals, addValue, hname, hnew]

/-- The switch for the units, if it is wanted, and the file, which stands behind a separator. -/
theorem read_file (args : Arguments) (path : String) (perUnit : Bool)
    (hswitches : args.switches = []) (hfiles : args.files = []) :
    read resolveNames args ((if perUnit then ["--per-unit"] else []) ++ ["--", path]) =
      some { args with switches := if perUnit then ["per-unit"] else [], files := [path] } := by
  obtain ⟨switches, values, files⟩ := args
  cases hswitches
  cases hfiles
  have hseparator : Argument.of "--" = .separator := rfl
  have hunits : Argument.of "--per-unit" = .long "per-unit" none := rfl
  cases perUnit with
  | false => simp [read, hseparator]
  | true => simp [read, hseparator, hunits, addSwitch, resolveNames]

end Arguments

/-- The options that describe a target, the form, the units and the file. -/
def resolveOptions (path : String) (options : TargetOptions) (format : Format) (perUnit : Bool) :
    List String :=
  (options.triple.map (joined "triple")).toList ++
    ((options.features.map (joined "features")).toList ++
      (((some format.name).map (joined "format")).toList ++
        ((if perUnit then ["--per-unit"] else []) ++ ["--", path])))

/-- Arguments that ask for the declarations of a file. -/
def resolveArguments (path : String) (options : TargetOptions) (format : Format)
    (perUnit verbose : Bool) : List String :=
  (if verbose then ["--verbose"] else []) ++
    "resolve" :: resolveOptions path options format perUnit

/-- What is read of the target and the form. -/
def resolveValues (options : TargetOptions) (format : Format) : List (String × String) :=
  ("format", format.name) :: ((options.features.map ("features", ·)).toList ++
    (options.triple.map ("triple", ·)).toList)

theorem Arguments.read_resolveOptions (path : String) (options : TargetOptions) (format : Format)
    (perUnit : Bool) : read resolveNames {} (resolveOptions path options format perUnit) =
      some { switches := if perUnit then ["per-unit"] else [],
             values := resolveValues options format, files := [path] } := by
  let triple := (options.triple.map (("triple" : String), ·)).toList ++ []
  let features := (options.features.map (("features" : String), ·)).toList
  have hfeatures : triple.lookup "features" = none := by
    dsimp only [triple]
    cases options.triple <;> rfl
  have hformat : (features ++ triple).lookup "format" = none := by
    dsimp only [triple, features]
    cases options.features <;> cases options.triple <;> rfl
  rw [resolveOptions, read_joined (by decide) (by simp [resolveNames]) rfl,
    read_joined (by decide) (by simp [resolveNames]) hfeatures,
    read_joined (by decide) (by simp [resolveNames]) hformat, read_file _ _ _ rfl rfl]
  simp [resolveValues]

/-- Every file, target, form and choice of units can be asked for. -/
theorem Invocation.parse?_resolveArguments (path : String) (options : TargetOptions)
    (format : Format) (perUnit verbose : Bool) :
    parse? (resolveArguments path options format perUnit verbose) =
      some ⟨.resolve path options format perUnit, verbose⟩ := by
  have hcommand (switched : Bool) : ofCommand? switched "resolve"
      (resolveOptions path options format perUnit) =
        some ⟨.resolve path options format perUnit, switched⟩ := by
    have hnames : OptionNames.ofCommand? "resolve" = some resolveNames := rfl
    rw [ofCommand?, hnames]
    simp only [Option.bind_eq_bind, Option.bind_some, Arguments.read_resolveOptions]
    obtain ⟨triple, features⟩ := options
    cases perUnit <;> cases triple <;> cases features <;>
      simp [Command.of?, Arguments.format, Arguments.target, Format.ofName?_name, resolveValues,
        List.lookup_cons]
  have hname : Argument.of "resolve" = .plain "resolve" := rfl
  have hverbose : Argument.of "--verbose" = .long "verbose" none := rfl
  cases verbose with
  | false => simp [resolveArguments, parse?, hname, hcommand]
  | true => simp [resolveArguments, parse?, hname, hverbose, hcommand]

/-! ## The stages of the library -/

namespace TargetOptions

/-- The target of some options before its switches. -/
def base (options : TargetOptions) : Except TargetError Target :=
  options.triple.elim (.ok .standard) Target.ofTriple

/-- The target of some options with its switches. -/
def described (options : TargetOptions) : Except TargetError Target := do
  let base ← options.base
  options.features.elim (.ok base) base.withFeatures

/-- Options describe a target, or their triple is refused, or else their switches are. -/
theorem described_or_refused (options : TargetOptions) :
    (∃ target, options.described = .ok target) ∨
      (∃ text e, options.triple = some text ∧ Target.ofTriple text = .error e) ∨
        ∃ base text e, options.base = .ok base ∧ options.features = some text ∧
          base.withFeatures text = .error e := by
  cases hbase : options.base with
  | error e =>
      rw [base] at hbase
      cases htriple : options.triple with
      | none =>
          rw [htriple] at hbase
          cases hbase
      | some text =>
          rw [htriple] at hbase
          exact Or.inr (Or.inl ⟨text, e, rfl, hbase⟩)
  | ok base =>
      rw [described, hbase]
      cases options.features with
      | none => exact Or.inl ⟨base, rfl⟩
      | some text =>
          cases hswitched : base.withFeatures text with
          | ok target => exact Or.inl ⟨target, hswitched⟩
          | error e => exact Or.inr (Or.inr ⟨base, text, e, rfl, rfl, hswitched⟩)

end TargetOptions

/-- The failure of a stage of the library. -/
inductive StageError where
  | listing (e : Listing.ReadError)
  | triple (text : String) (e : TargetError)
  | features (text : String) (e : TargetError)
  | resolution (e : ResolutionError)

/-- What a command line says of the failure of a stage. -/
def StageError.failure : StageError → Failure
  | .listing e => .ofListing e
  | .triple text e => .ofTarget ("invalid target triple '" ++ text ++ "'") e
  | .features text e => .ofTarget ("invalid feature string '" ++ text ++ "'") e
  | .resolution e => .ofResolution e

/-- All stages succeed on a text: it lists a module, the options describe a target, which has an
environment, and there the module resolves. -/
structure Resolves (source : String) (options : TargetOptions) (m : Module) (env : Environment)
    (d : Declarations) : Prop where
  parsed : Module.parse source = .ok m
  built : ∃ target, options.described = .ok target ∧ Environment.build target = .ok env
  resolved : m.resolve env = .ok d

/-- A stage fails on a text, and the stages before it succeed. -/
inductive FirstFailure (source : String) (options : TargetOptions) : StageError → Prop
  | listing {e : Listing.ReadError} (herror : Module.parse source = .error e) :
      FirstFailure source options (.listing e)
  | triple {m : Module} {text : String} {e : TargetError} (hparse : Module.parse source = .ok m)
      (htriple : options.triple = some text) (herror : Target.ofTriple text = .error e) :
      FirstFailure source options (.triple text e)
  | features {m : Module} {base : Target} {text : String} {e : TargetError}
      (hparse : Module.parse source = .ok m) (hbase : options.base = .ok base)
      (hfeatures : options.features = some text) (herror : base.withFeatures text = .error e) :
      FirstFailure source options (.features text e)
  | resolution {m : Module} {target : Target} {env : Environment} {e : ResolutionError}
      (hparse : Module.parse source = .ok m) (hdescribed : options.described = .ok target)
      (hbuild : Environment.build target = .ok env) (herror : m.resolve env = .error e) :
      FirstFailure source options (.resolution e)

variable {source : String} {options : TargetOptions}

/-- All stages succeed, or there is a first one that fails. -/
theorem resolves_or_firstFailure (source : String) (options : TargetOptions) :
    (∃ m env d, Resolves source options m env d) ∨ ∃ e, FirstFailure source options e := by
  cases hparse : Module.parse source with
  | error e => exact Or.inr ⟨_, .listing hparse⟩
  | ok m =>
      rcases options.described_or_refused with ⟨target, hdescribed⟩ | ⟨text, e, htriple, herror⟩ |
        ⟨base, text, e, hbase, hfeatures, herror⟩
      · have hbuild := Environment.build_eq target
        cases hresolve : m.resolve (.ofTarget target) with
        | error e => exact Or.inr ⟨_, .resolution hparse hdescribed hbuild hresolve⟩
        | ok d => exact Or.inl ⟨m, _, d, hparse, ⟨target, hdescribed, hbuild⟩, hresolve⟩
      · exact Or.inr ⟨_, .triple hparse htriple herror⟩
      · exact Or.inr ⟨_, .features hparse hbase hfeatures herror⟩

/-! ## The stages of the command -/

theorem loadModule_eq {files : Files} {path : String} (hfile : files path = .ok source.toUTF8)
    (hsize : source.utf8ByteSize ≤ sizeLimit) :
    loadModule files path = (Module.parse source).mapError .ofListing := by
  have htext : String.fromUTF8? source.toUTF8 = some source := dif_pos source.isValidUTF8
  have hload : loadSource files path = pure source := by
    rw [loadSource, hfile]
    simp only [htext, if_neg (Nat.not_lt.2 hsize)]
    rfl
  rw [loadModule, hload, pure_bind]
  cases Module.parse source <;> rfl

namespace TargetOptions

theorem target_of_triple {text : String} {e : TargetError} (htriple : options.triple = some text)
    (herror : Target.ofTriple text = .error e) :
    options.target = .error (StageError.triple text e).failure := by
  rw [target, htriple]
  simp only [herror]
  rfl

theorem target_of_base {base : Target} (hbase : options.base = .ok base) :
    options.target = options.features.elim (.ok base) fun text =>
      (base.withFeatures text).mapError fun e => (StageError.features text e).failure := by
  rw [target]
  cases htriple : options.triple with
  | none =>
      rw [TargetOptions.base, htriple] at hbase
      cases hbase
      cases options.features with
      | none => rfl
      | some text =>
          simp only [pure_bind, Option.elim_some]
          cases Target.standard.withFeatures text <;> rfl
  | some triple =>
      rw [TargetOptions.base, htriple, Option.elim_some] at hbase
      simp only [hbase, pure_bind]
      cases options.features with
      | none => rfl
      | some text =>
          simp only [Option.elim_some]
          cases base.withFeatures text <;> rfl

theorem target_of_features {base : Target} {text : String} {e : TargetError}
    (hbase : options.base = .ok base) (hfeatures : options.features = some text)
    (herror : base.withFeatures text = .error e) :
    options.target = .error (StageError.features text e).failure := by
  rw [target_of_base hbase, hfeatures, Option.elim_some, herror]
  rfl

theorem target_of_described {target : Target} (h : options.described = .ok target) :
    options.target = .ok target := by
  obtain ⟨base, hbase, h⟩ := except_bind_eq_ok_iff.1 h
  rw [target_of_base hbase]
  cases hfeatures : options.features with
  | none =>
      rw [hfeatures] at h
      cases h
      rfl
  | some text =>
      rw [hfeatures, Option.elim_some] at h
      rw [Option.elim_some, h]
      rfl

end TargetOptions

/-- What a report tells of each unit: its name and what it has to declare. -/
def UnitEntries (m : Module) (env : Environment) (entries : List (String × Declarations)) : Prop :=
  List.Forall₂ (fun unit entry =>
    entry.1 = unit.name ∧ unit.resolve env m.index.find? = .ok entry.2) m.units entries

/-- The names of units beside their results. -/
theorem forall₂_zip_names {env : Environment} {defs : Definitions} {units : List CodeUnit}
    {results : List Declarations}
    (h : units.map (fun unit => unit.resolve env defs) = results.map .ok) :
    List.Forall₂ (fun unit entry => entry.1 = unit.name ∧ unit.resolve env defs = .ok entry.2)
      units ((units.map (·.name)).zip results) := by
  induction units generalizing results with
  | nil => exact .nil
  | cons unit rest ih =>
      cases results with
      | nil => cases h
      | cons d others =>
          rw [List.map_cons, List.map_cons, List.cons.injEq] at h
          exact .cons ⟨rfl, h.1⟩ (ih h.2)

theorem resolutionReport_of_resolve {m : Module} {env : Environment} {d : Declarations}
    (h : m.resolve env = .ok d) : ∃ entries, UnitEntries m env entries ∧ ∀ perUnit,
      resolutionReport m env perUnit = .ok ⟨if perUnit then some entries else none, d⟩ := by
  cases hunits : m.resolveUnits env with
  | error e =>
      rw [Module.resolve, hunits] at h
      cases h
  | ok results =>
      rw [Module.resolve, hunits] at h
      cases h
      refine ⟨_, forall₂_zip_names (CodeUnit.resolveAll_eq_ok_iff.1 hunits), fun perUnit => ?_⟩
      rw [resolutionReport, hunits]
      rfl

theorem resolutionReport_of_error {m : Module} {env : Environment} {e : ResolutionError}
    (h : m.resolve env = .error e) (perUnit : Bool) :
    resolutionReport m env perUnit = .error (.ofResolution e) := by
  cases hunits : m.resolveUnits env with
  | ok results =>
      rw [Module.resolve, hunits] at h
      cases h
  | error cause =>
      rw [Module.resolve, hunits] at h
      cases h
      rw [resolutionReport, hunits]

namespace Command

variable {files : Files} {path : String} {format : Format} {perUnit : Bool}

/-- Behind the listing and the target the command resolves. -/
theorem run_of_target {m : Module} {target : Target} (hload : loadModule files path = .ok m)
    (htarget : options.target = .ok target) :
    (resolve path options format perUnit).run files =
      (resolutionReport m (.ofTarget target) perUnit).map fun report =>
        format.print report.text report.record := by
  rw [run, hload, TargetOptions.environment, htarget]
  rfl

/-- The command prints a report where all stages succeed. -/
theorem run_of_resolves {m : Module} {env : Environment} {d : Declarations} (format : Format)
    (perUnit : Bool) (hload : loadModule files path = (Module.parse source).mapError .ofListing)
    (h : Resolves source options m env d) :
    ∃ entries, UnitEntries m env entries ∧
      let report : ResolutionReport := ⟨if perUnit then some entries else none, d⟩
      (resolve path options format perUnit).run files =
        .ok (format.print report.text report.record) := by
  obtain ⟨hparse, ⟨target, hdescribed, hbuild⟩, hresolve⟩ := h
  rw [Environment.build_eq, Except.ok.injEq] at hbuild
  subst hbuild
  obtain ⟨entries, hentries, hreport⟩ := resolutionReport_of_resolve hresolve
  refine ⟨entries, hentries, ?_⟩
  rw [hparse] at hload
  rw [run_of_target hload (TargetOptions.target_of_described hdescribed), hreport]
  rfl

/-- The command fails with the first stage that fails. -/
theorem run_of_firstFailure {e : StageError}
    (hload : loadModule files path = (Module.parse source).mapError .ofListing)
    (h : FirstFailure source options e) :
    (resolve path options format perUnit).run files = .error e.failure := by
  cases h with
  | listing herror =>
      rw [run, hload, herror]
      rfl
  | triple hparse htriple herror =>
      rw [run, hload, hparse, TargetOptions.environment,
        TargetOptions.target_of_triple htriple herror]
      rfl
  | features hparse hbase hfeatures herror =>
      rw [run, hload, hparse, TargetOptions.environment,
        TargetOptions.target_of_features hbase hfeatures herror]
      rfl
  | resolution hparse hdescribed hbuild herror =>
      rw [Environment.build_eq, Except.ok.injEq] at hbuild
      subst hbuild
      rw [hparse] at hload
      rw [run_of_target hload (TargetOptions.target_of_described hdescribed),
        resolutionReport_of_error herror]
      rfl

end Command

/-! ## What a report shows -/

/-- The two lists of some declarations, as fields of a JSON object. -/
def declarationFields (d : Declarations) : List (String × Json) :=
  [("capabilities", .arr (d.capabilities.map fun cap => .str cap.name)),
    ("extensions", .arr (d.extensions.map fun ext => .str ext.name))]

/-- What an output shows of a report. As text it states the declarations line by line, each unit
under a heading of its own if there are units; in JSON it is an object with the declarations and, if
there are units, the list of them, each an object with its name and its declarations. -/
def Format.Shows (report : ResolutionReport) (output : String) : Format → Prop
  | .pretty => output.toList = report.statements.flatMap fun line => line.text.toList ++ ['\n']
  | .json =>
    match report.units with
    | none => Json.SpelledBy (.obj (declarationFields report.module)) output.toList
    | some units =>
      let entries := units.map fun unit => .obj (("unit", .str unit.1) :: declarationFields unit.2)
      Json.SpelledBy (.obj (("units", .arr entries) :: declarationFields report.module))
        output.toList

theorem Format.shows_print (format : Format) (report : ResolutionReport) :
    format.Shows report (format.print report.text report.record) := by
  cases format with
  | pretty =>
      show report.text.toList = _
      rw [ResolutionReport.text, Text.toList_ofLines, ← report.map_text_statements,
        List.flatMap_map]
  | json =>
      obtain ⟨units | units, module⟩ := report
      · exact Json.text_spells _
      · exact Json.text_spells _

/-! ## A listing for kernels -/

/-- A memory model with physical addresses, and a function. -/
def physicalListing : String := "OpMemoryModel 2 2\nOpFunction\nOpFunctionEnd\n"

/-- The listing is the content of every file. -/
def physicalFile : Files := fun _ => .ok physicalListing.toUTF8

/-- Physical addresses in the memory model of OpenCL. -/
def physicalModel : Instruction :=
  { Instruction.of .memoryModel none [.imm 2, .imm 2] with span := ⟨0, 17⟩ }

/-- The function of the listing. -/
def emptyFunction : CodeUnit where
  name := "function0"
  instructions :=
    [{ Instruction.of .function none [] with span := ⟨18, 28⟩ },
      { Instruction.of .functionEnd none [] with span := ⟨29, 42⟩ }]

/-- The module of the listing. -/
def physicalModule : Module where
  units := [⟨"<module>", [physicalModel]⟩, emptyFunction]

theorem parse_physicalListing : Module.parse physicalListing = .ok physicalModule := by
  have hlines : Listing.lines (Listing.tokens physicalListing) =
      [⟨⟨.word "OpMemoryModel", ⟨0, 13⟩, 1⟩,
          [⟨.integer 2, ⟨14, 15⟩, 1⟩, ⟨.integer 2, ⟨16, 17⟩, 1⟩], ⟨.newline, ⟨17, 18⟩, 1⟩⟩,
        ⟨⟨.word "OpFunction", ⟨18, 28⟩, 2⟩, [], ⟨.newline, ⟨28, 29⟩, 2⟩⟩,
        ⟨⟨.word "OpFunctionEnd", ⟨29, 42⟩, 3⟩, [], ⟨.newline, ⟨42, 43⟩, 3⟩⟩] := by
    decide +kernel
  rw [Module.parse, hlines]
  rfl

/-- Each capability of the memory model is its own order. -/
theorem expandedRequirements_physicalModel (defs : Definitions) :
    physicalModel.expandedRequirements (.ofTarget .standard) defs =
      .ok [.capability .addresses, .capability .kernel] := by
  have hrequirements : physicalModel.requirements (.ofTarget .standard) defs =
      .ok [.capability .addresses, .capability .kernel] :=
    show physicalModel.operandRequirements (.ofTarget .standard)
      [(0, .addressingModel), (1, .memoryModel)] = _ by decide +kernel
  have horder (cap : Capability) (h : PrerequisiteGraph.standard.prerequisites cap = []) :
      (Environment.ofTarget .standard).graph.order cap = .ok [cap] := by
    show PrerequisiteGraph.standard.order cap = _
    simp [PrerequisiteGraph.order, PrerequisiteGraph.visit, h]
  simp [Instruction.expandedRequirements, hrequirements, Requirement.expandAll,
    Requirement.expand, horder .addresses (by decide +kernel), horder .kernel (by decide +kernel),
    Except.map]

theorem resolve_physicalModel (defs : Definitions) :
    CodeUnit.resolve ⟨"<module>", [physicalModel]⟩ (.ofTarget .standard) defs =
      .ok ⟨[.addresses, .kernel], []⟩ := by
  refine CodeUnit.resolve_eq_ok_iff.2 ⟨?_, ⟨⟨[.addresses, .kernel], []⟩, []⟩, ?_, ?_⟩
  · simp [expandedRequirements_physicalModel]
  · rw [Instruction.stream, List.flatMap_singleton,
      Instruction.demands_of_eq_ok (expandedRequirements_physicalModel defs)]
    exact .cons _ _ _ _ _ (.declare _ none (by decide) rfl)
      (.cons _ _ _ _ _ (.declare _ none (by decide) rfl) (.nil _))
  · simp [Collector.finish_eq_foldl]

/-- A function without instructions inside needs nothing. -/
theorem resolve_emptyFunction (env : Environment) (defs : Definitions) :
    emptyFunction.resolve env defs = .ok {} := by
  have hcollect : CodeUnit.collectFrom env defs emptyFunction.name 0 .empty
      emptyFunction.instructions = .ok .empty := rfl
  rw [CodeUnit.resolve, hcollect]
  simp [Collector.finish_eq_foldl, Collector.empty]

theorem resolves_physicalListing :
    Resolves physicalListing {} physicalModule (.ofTarget .standard)
      ⟨[.addresses, .kernel], []⟩ := by
  refine ⟨parse_physicalListing, ⟨.standard, rfl, Environment.build_eq .standard⟩, ?_⟩
  refine Module.resolve_eq_ok_iff.2 ⟨[⟨[.addresses, .kernel], []⟩, {}], ?_, rfl⟩
  rw [physicalModule, List.map_cons, List.map_cons, resolve_physicalModel, resolve_emptyFunction]
  rfl

/-! ## The main result -/

/-- A command line that asks for the declarations of a file with a text succeeds exactly where all
stages of the library do. Then its output shows, in the form that is asked for, the declarations of
the module and, where the units are asked for, the name of each unit in order with its declarations.
Otherwise it prints the failure of the first stage that fails, and no result. -/
theorem resolve_reports {files : Files} {arguments : List String} {path source : String}
    {options : TargetOptions} {format : Format} {perUnit verbose : Bool}
    (hparse : Invocation.parse? arguments =
      some ⟨.resolve path options format perUnit, verbose⟩)
    (hfile : files path = .ok source.toUTF8) (hsize : source.utf8ByteSize ≤ sizeLimit) :
    ((run files arguments).code = 0 ↔ ∃ m env d, Resolves source options m env d) ∧
      (∀ m env d, Resolves source options m env d →
        ∃ entries, UnitEntries m env entries ∧
          let report : ResolutionReport := ⟨if perUnit then some entries else none, d⟩
          let output := format.print report.text report.record
          run files arguments = { code := 0, output } ∧ format.Shows report output) ∧
      (∀ e, FirstFailure source options e →
        run files arguments = { code := 1, errors := e.failure.text }) ∧
      ((∃ m env d, Resolves source options m env d) ∨ ∃ e, FirstFailure source options e) := by
  have hload := loadModule_eq hfile hsize
  have hsuccess (m : Module) (env : Environment) (d : Declarations)
      (h : Resolves source options m env d) :
      ∃ entries, UnitEntries m env entries ∧
        let report : ResolutionReport := ⟨if perUnit then some entries else none, d⟩
        let output := format.print report.text report.record
        run files arguments = { code := 0, output } ∧ format.Shows report output := by
    obtain ⟨entries, hentries, hrun⟩ := Command.run_of_resolves format perUnit hload h
    refine ⟨entries, hentries, ?_, format.shows_print _⟩
    rw [run, hparse, Invocation.run, hrun]
  have hfailure (e : StageError) (h : FirstFailure source options e) :
      run files arguments = { code := 1, errors := e.failure.text } := by
    rw [run, hparse, Invocation.run, Command.run_of_firstFailure hload h]
  refine ⟨⟨fun hcode => ?_, ?_⟩, hsuccess, hfailure, resolves_or_firstFailure source options⟩
  · refine (resolves_or_firstFailure source options).resolve_right ?_
    rintro ⟨e, h⟩
    rw [hfailure e h] at hcode
    exact absurd (show (1 : UInt32) = 0 from hcode) (by decide)
  · rintro ⟨m, env, d, h⟩
    obtain ⟨_, _, hrun, -⟩ := hsuccess m env d h
    rw [hrun]

/-- What the units of the listing declare. -/
def physicalEntries : List (String × Declarations) :=
  [("<module>", ⟨[.addresses, .kernel], []⟩), ("function0", {})]

theorem eq_physicalEntries {entries : List (String × Declarations)}
    (h : UnitEntries physicalModule (.ofTarget .standard) entries) : entries = physicalEntries := by
  cases h with
  | @cons _ first _ _ hmodule hfunctions =>
  cases hfunctions with
  | @cons _ second _ _ hfunction hnil =>
  cases hnil
  rw [resolve_physicalModel, Except.ok.injEq] at hmodule
  rw [resolve_emptyFunction, Except.ok.injEq] at hfunction
  rw [← Prod.mk.eta (p := first), ← Prod.mk.eta (p := second), hmodule.1, ← hmodule.2,
    hfunction.1, ← hfunction.2]
  rfl

/-- The JSON report of the listing, unit by unit. -/
def physicalReport : String :=
  "\x7b\n  \"units\": [\n    \x7b\n      \"unit\": \"<module>\",\n" ++
    "      \"capabilities\": [\n        \"Addresses\",\n        \"Kernel\"\n      ],\n" ++
    "      \"extensions\": []\n    \x7d,\n    \x7b\n      \"unit\": \"function0\",\n" ++
    "      \"capabilities\": [],\n      \"extensions\": []\n    \x7d\n  ],\n" ++
    "  \"capabilities\": [\n    \"Addresses\",\n    \"Kernel\"\n  ],\n" ++
    "  \"extensions\": []\n\x7d\n"

theorem text_record_physicalEntries :
    (ResolutionReport.record ⟨some physicalEntries, ⟨[.addresses, .kernel], []⟩⟩).text =
      physicalReport := by
  -- Layouts recur into lists of items, so they are unfolded by their equations first.
  simp only [ResolutionReport.record, physicalEntries, Declarations.reportFields, Json.strs,
    Option.toList_some, List.map_cons, List.map_nil, List.cons_append, List.nil_append,
    Json.text, Json.layout, bracket, separate, before, behind, join, List.dropLast_cons_cons,
    List.dropLast_singleton, List.dropLast_nil, List.getLast?_cons_cons, List.getLast?_singleton,
    List.getLast?_nil, Option.toList_none, List.append_nil, List.isEmpty_cons, List.isEmpty_nil,
    Bool.false_eq_true, if_false, if_true, Layout.text, write, List.foldl_cons, List.foldl_nil]
  decide +kernel

/-- The listing of physical addresses resolves unit by unit, in both forms, and a switch without a
sign is refused before anything is printed. -/
theorem resolve_reports_physicalListing :
    run physicalFile ["resolve", "--per-unit", "kernel"] =
        { code := 0, output := "; unit <module>\nOpCapability Addresses\nOpCapability Kernel\n" ++
            "; unit function0\n; module\nOpCapability Addresses\nOpCapability Kernel\n" } ∧
      run physicalFile (resolveArguments "kernel" ⟨none, some "Int64"⟩ .json true false) =
        { code := 1, errors := "Error: invalid feature string 'Int64'\n\nCaused by:\n" ++
            "    feature toggle 'Int64' must start with '+' or '-'\n" } ∧
      run physicalFile (resolveArguments "kernel" {} .json true false) =
        { code := 0, output := physicalReport } := by
  have hfile : physicalFile "kernel" = .ok physicalListing.toUTF8 := rfl
  have hsize : physicalListing.utf8ByteSize ≤ sizeLimit := by decide +kernel
  refine ⟨?_, ?_, ?_⟩
  · have hparse : Invocation.parse? ["resolve", "--per-unit", "kernel"] =
        some ⟨.resolve "kernel" {} .pretty true, false⟩ := by decide +kernel
    obtain ⟨-, hsuccess, -⟩ := resolve_reports hparse hfile hsize
    obtain ⟨entries, hentries, hrun, -⟩ := hsuccess _ _ _ resolves_physicalListing
    rw [hrun, eq_physicalEntries hentries]
    decide +kernel
  · have hparse := Invocation.parse?_resolveArguments "kernel" ⟨none, some "Int64"⟩ .json true false
    have hfirst : FirstFailure physicalListing ⟨none, some "Int64"⟩
        (.features "Int64" (.malformedToggle "Int64")) :=
      .features parse_physicalListing rfl rfl (by decide +kernel)
    obtain ⟨-, -, hfailure, -⟩ := resolve_reports hparse hfile hsize
    rw [hfailure _ hfirst]
    decide +kernel
  · have hparse := Invocation.parse?_resolveArguments "kernel" {} .json true false
    obtain ⟨-, hsuccess, -⟩ := resolve_reports hparse hfile hsize
    obtain ⟨entries, hentries, hrun, -⟩ := hsuccess _ _ _ resolves_physicalListing
    rw [hrun, eq_physicalEntries hentries]
    exact congrArg (Outcome.mk 0 · "") text_record_physicalEntries

end CommandLine

end SpirvLegality
