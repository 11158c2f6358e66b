import SpirvLegality.Capability
import SpirvLegality.Capability.Table
import SpirvLegality.Collector
import SpirvLegality.CommandLine.Arguments
import SpirvLegality.CommandLine.Files
import SpirvLegality.CommandLine.Run
import SpirvLegality.Declarations
import SpirvLegality.Enumerant
import SpirvLegality.Enumerated
import SpirvLegality.Environment
import SpirvLegality.Environment.Availability
import SpirvLegality.Environment.Default
import SpirvLegality.Extension
import SpirvLegality.Family
import SpirvLegality.Family.BuiltIn
import SpirvLegality.Family.Decoration
import SpirvLegality.Family.Execution
import SpirvLegality.Family.Storage
import SpirvLegality.Instruction
import SpirvLegality.Json
import SpirvLegality.Listing.Lexer
import SpirvLegality.Listing.NameTable
import SpirvLegality.Listing.Reader
import SpirvLegality.Listing.Scanner
import SpirvLegality.Listing.Token
import SpirvLegality.Main
import SpirvLegality.Module
import SpirvLegality.Module.Outline
import SpirvLegality.Module.Record
import SpirvLegality.Opcode
import SpirvLegality.PrerequisiteGraph
import SpirvLegality.PrerequisiteGraph.Walk
import SpirvLegality.Report.Resolution
import SpirvLegality.Report.Target
import SpirvLegality.Requirement
import SpirvLegality.Resolution
import SpirvLegality.Rule
import SpirvLegality.Rule.Derivation
import SpirvLegality.Target
import SpirvLegality.Target.Feature
import SpirvLegality.Target.Triple
import SpirvLegality.Text.Blank
import SpirvLegality.Text.Layout
import SpirvLegality.Text.Numeral
import SpirvLegality.Text.Quoted
import SpirvLegality.Text.Range
import SpirvLegality.Text.Shown
import SpirvLegality.Text.Word
import SpirvLegality.Version
import SpirvLegality.Proofs.Declarations
import SpirvLegality.Proofs.Collector
import SpirvLegality.Proofs.Choices
import SpirvLegality.Proofs.Resolution
import SpirvLegality.Proofs.Availability
import SpirvLegality.Proofs.History
import SpirvLegality.Proofs.Soundness
import SpirvLegality.Proofs.Legality
import SpirvLegality.Proofs.Order
import SpirvLegality.Proofs.Traceability
import SpirvLegality.Proofs.PrerequisiteOrder
import SpirvLegality.Proofs.Redundancy
import SpirvLegality.Proofs.TableSearch
import SpirvLegality.Proofs.Widening
import SpirvLegality.Proofs.Upgrade
import SpirvLegality.Proofs.Reachability
import SpirvLegality.Proofs.MissingPrerequisites
import SpirvLegality.Proofs.FreshEnvironment
import SpirvLegality.Proofs.Switches
import SpirvLegality.Proofs.Failure
import SpirvLegality.Proofs.Numbering
import SpirvLegality.Proofs.Lexing
import SpirvLegality.Proofs.Writing
import SpirvLegality.Proofs.Lines
import SpirvLegality.Proofs.Cutting
import SpirvLegality.Proofs.Sentences
import SpirvLegality.Proofs.Reading
import SpirvLegality.Proofs.Blindness
import SpirvLegality.Proofs.Renaming
import SpirvLegality.Proofs.Refusal
import SpirvLegality.Proofs.Repetition
import SpirvLegality.Proofs.UnitOrder
import SpirvLegality.Proofs.Renumbering
import SpirvLegality.Proofs.Cycles
import SpirvLegality.Proofs.Sharing
import SpirvLegality.Proofs.Validation
import SpirvLegality.Collector.Recorder
import SpirvLegality.Proofs.Recording
import SpirvLegality.Proofs.Batch
import SpirvLegality.Proofs.FirstRefusal
import SpirvLegality.Proofs.Synchronization
import SpirvLegality.Proofs.Enabling
import SpirvLegality.Proofs.Expansion
import SpirvLegality.Proofs.Merging
import SpirvLegality.Proofs.Derivation
import SpirvLegality.Proofs.Images
import SpirvLegality.Proofs.Tiling
import SpirvLegality.Proofs.Scanning
import SpirvLegality.Listing.Progress
import SpirvLegality.Proofs.Progress
import SpirvLegality.Proofs.Partition
import SpirvLegality.Proofs.Interning
import SpirvLegality.Proofs.ErrorLines
import SpirvLegality.Proofs.TripleComponents
import SpirvLegality.Proofs.Triples
import SpirvLegality.Proofs.FeatureStrings
import SpirvLegality.Proofs.CharacterBoundaries
import SpirvLegality.Proofs.FeatureNames
import SpirvLegality.Module.Places
import SpirvLegality.Proofs.Places
import SpirvLegality.Proofs.VersionTexts
import SpirvLegality.Proofs.ResolveCommand
import SpirvLegality.Environment.Worklist
import SpirvLegality.Proofs.Worklist
import SpirvLegality.Proofs.ReportTexts
