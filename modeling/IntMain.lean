import IntMain.Text.Blank
import IntMain.Text.Decimal
import IntMain.Text.Json
import IntMain.Text.Layout
import IntMain.Text.Letter
import IntMain.Text.Line
import IntMain.Text.Number
import IntMain.Position
import IntMain.Log
import IntMain.Stage
import IntMain.Token.Kind
import IntMain.Token.Basic
import IntMain.Token.Lexicon
import IntMain.Token.Piece
import IntMain.Token.Lexer
import IntMain.Token.IntegerValue
import IntMain.Fault
import IntMain.Diagnostic
import IntMain.Token.Cursor
import IntMain.Tree.Operator
import IntMain.Tree.Basic
import IntMain.Tree.Walk
import IntMain.Tree.Parent
import IntMain.Tree.Printer
import IntMain.Tree.Parser
import IntMain.Scope.Basic
import IntMain.Scope.Printer
import IntMain.Scope.Resolution
import IntMain.Quad.Basic
import IntMain.Quad.Printer
import IntMain.Quad.Lowering
import IntMain.Assembly.Line
import IntMain.Assembly.Pairing
import IntMain.Assembly.Selection
import IntMain.Export
import IntMain.Session
import IntMain.Session.Output
import IntMain.CommandLine.Request
import IntMain.CommandLine.Path
import IntMain.CommandLine.Files
import IntMain.CommandLine.Perform
import IntMain.Main
import IntMain.Proofs.Numeral
import IntMain.Proofs.Machine
import IntMain.Proofs.Meaning
import IntMain.Proofs.QuadMachine
import IntMain.Proofs.TreeShape
import IntMain.Proofs.Stamping
import IntMain.Proofs.LoweringByDepth
import IntMain.Proofs.LoweringRules
import IntMain.Proofs.LoweringMeaning
import IntMain.Proofs.DirectTests
import IntMain.Proofs.LineMachine
import IntMain.Proofs.SelectedLines
import IntMain.Proofs.SelectionRules
import IntMain.Proofs.AssemblyMeaning
import IntMain.Proofs.Grammar
import IntMain.Proofs.Acceptance
import IntMain.Proofs.Rendering
import IntMain.Proofs.Reading
import IntMain.Proofs.Reparsing
import IntMain.Proofs.ResolutionErrands
import IntMain.Proofs.Occurrences
import IntMain.Proofs.LexicalScoping
import IntMain.Proofs.NameChanges
import IntMain.Proofs.Renaming
import IntMain.Proofs.RenamedAssembly
import IntMain.Proofs.ConditionOrder
import IntMain.Proofs.BranchPairing
import IntMain.Proofs.SessionCoherence
import IntMain.Proofs.FirstImpossible
import IntMain.Proofs.StreamReading
import IntMain.Proofs.Restamping
import IntMain.Proofs.RunningAgain
import IntMain.Proofs.Pieces
import IntMain.Proofs.TextCover
import IntMain.Proofs.TreeGrowth
import IntMain.Proofs.TextLines
import IntMain.Proofs.FaultPlaces
import IntMain.Proofs.ScopeChains
import IntMain.Proofs.ScopeArena
import IntMain.Proofs.RegisterDemand
import IntMain.Proofs.StageFailures
import IntMain.Proofs.EntryPoints
import IntMain.Proofs.TemporaryLifetimes
import IntMain.Proofs.EmittedLines
import IntMain.Proofs.OperandForms
import IntMain.Proofs.FrameLayout
import IntMain.Proofs.LabelPlaces
import IntMain.Proofs.StampsUpToFault
import IntMain.Proofs.ScopeNesting
import IntMain.Proofs.IntegerSpelling
import IntMain.Proofs.Rescanning
import IntMain.Proofs.StableKinds
import IntMain.Proofs.Respacing
import IntMain.Proofs.EndOfText
import IntMain.Proofs.ListingLines
import IntMain.Proofs.QuotedLiterals
import IntMain.Proofs.TreeExport
