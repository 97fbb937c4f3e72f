import ShaderLibrary.Main
import ShaderLibrary.Expansion
import ShaderLibrary.Session
import ShaderLibrary.Store.Edit
import ShaderLibrary.Store.Memory
import ShaderLibrary.Proofs.Dictionary
import ShaderLibrary.Proofs.IncludeGraph
import ShaderLibrary.Proofs.Inclusion
import ShaderLibrary.Proofs.Lines
import ShaderLibrary.Proofs.Tour
import ShaderLibrary.Proofs.Sections
import ShaderLibrary.Proofs.Depth
import ShaderLibrary.Proofs.LineNumbers
import ShaderLibrary.Proofs.Inlining
import ShaderLibrary.Proofs.Hoisting
import ShaderLibrary.Proofs.Cycle
import ShaderLibrary.Proofs.Headings
import ShaderLibrary.Proofs.Splitting
import ShaderLibrary.Proofs.StageNames
import ShaderLibrary.Proofs.Cache
import ShaderLibrary.Proofs.WriteOnce
import ShaderLibrary.Proofs.Transparency
import ShaderLibrary.Proofs.Miss
import ShaderLibrary.Proofs.Macros
import ShaderLibrary.Proofs.VersionLines
import ShaderLibrary.Proofs.DefinitionLines
import ShaderLibrary.Proofs.WholeFile
import ShaderLibrary.Proofs.LineEndings
import ShaderLibrary.Proofs.MacroBlock
import ShaderLibrary.Proofs.Events
import ShaderLibrary.Proofs.Evaluation
import ShaderLibrary.Proofs.InProgress
import ShaderLibrary.Proofs.ContextFree
import ShaderLibrary.Proofs.Alike
import ShaderLibrary.Proofs.Locality
import ShaderLibrary.Proofs.Loading
import ShaderLibrary.Proofs.Softened
import ShaderLibrary.Proofs.Dump
import ShaderLibrary.Proofs.Scan
import ShaderLibrary.Proofs.Bindings
import ShaderLibrary.Proofs.SymbolicNames
import ShaderLibrary.Proofs.TrailingText
import ShaderLibrary.Proofs.Reports
import ShaderLibrary.Proofs.Journal
import ShaderLibrary.Proofs.Building
import ShaderLibrary.Proofs.LineSplitting
import ShaderLibrary.Proofs.LineSteps
import ShaderLibrary.Proofs.FolderListing
import ShaderLibrary.Proofs.AlikeAnswers
