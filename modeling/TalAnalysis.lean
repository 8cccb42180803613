import TalAnalysis.Editor.OutlineKind
import TalAnalysis.Main
import TalAnalysis.Server.Wire
import TalAnalysis.Proofs.Text.Line
import TalAnalysis.Proofs.Lexer.Segment
import TalAnalysis.Proofs.Lexer.BeforeLineFeed
import TalAnalysis.Proofs.Lexer.Segmentation
import TalAnalysis.Proofs.Lexer.LineBreak
import TalAnalysis.Proofs.Lexer.Place
import TalAnalysis.Proofs.Lexer.LineRead
import TalAnalysis.Proofs.Lexer.Grouping
import TalAnalysis.Proofs.Lexer.Rendering
import TalAnalysis.Proofs.Lexer.Case
import TalAnalysis.Proofs.Declaration.Copy.Window
import TalAnalysis.Proofs.Declaration.Extension.Item
import TalAnalysis.Proofs.Declaration.Extension.Run
import TalAnalysis.Proofs.Declaration.Nesting
import TalAnalysis.Proofs.Declaration.Coherence
import TalAnalysis.Proofs.Declaration.Scoping
import TalAnalysis.Proofs.Declaration.Lists.Extraction
import TalAnalysis.Proofs.Editor.Position
import TalAnalysis.Proofs.Editor.RoundTrip
import TalAnalysis.Proofs.Editor.Range
import TalAnalysis.Proofs.Editor.Definition
import TalAnalysis.Proofs.Server.Run
import TalAnalysis.Proofs.Declaration.Copy.Item
import TalAnalysis.Proofs.Declaration.Copy.Line
import TalAnalysis.Proofs.Declaration.Copy.Run
import TalAnalysis.Proofs.Declaration.Comments
import TalAnalysis.Proofs.Declaration.Lookback
import TalAnalysis.Proofs.Symbol.Table
import TalAnalysis.Proofs.Lexer.Row
import TalAnalysis.Proofs.Symbol.History
import TalAnalysis.Proofs.Declaration.FirstLine
import TalAnalysis.Proofs.Declaration.LayoutFree
import TalAnalysis.Proofs.Declaration.LiteralText
import TalAnalysis.Proofs.Declaration.Value
import TalAnalysis.Proofs.Editor.Outline.Shape
import TalAnalysis.Proofs.Editor.Outline.Complete
import TalAnalysis.Proofs.Declaration.Template
import TalAnalysis.Proofs.Declaration.Directive.Line
import TalAnalysis.Proofs.Declaration.Redefinition
import TalAnalysis.Proofs.Declaration.Joined.Table
import TalAnalysis.Proofs.Declaration.TypedProcedure
import TalAnalysis.Proofs.Vocabulary.Sign
import TalAnalysis.Proofs.Vocabulary.Word
import TalAnalysis.Proofs.Lexer.Grammar
import TalAnalysis.Proofs.Checked.Analysis
import TalAnalysis.Proofs.Checked.Operation
import TalAnalysis.Proofs.Checked.Registry
import TalAnalysis.Proofs.Declaration.Window
import TalAnalysis.Proofs.Editor.Word
import TalAnalysis.Proofs.Declaration.Order
import TalAnalysis.Proofs.Editor.Closest
import TalAnalysis.Proofs.CommandLine.Rows
import TalAnalysis.Proofs.Text.Quoted
import TalAnalysis.Proofs.CommandLine.TokenListing
import TalAnalysis.Proofs.CommandLine.Shown
import TalAnalysis.Proofs.CommandLine.SymbolListing
import TalAnalysis.Proofs.Editor.DirectiveLine
import TalAnalysis.Proofs.Editor.Completion
import TalAnalysis.Proofs.CommandLine.Reports
import TalAnalysis.Proofs.Declaration.ContextName
import TalAnalysis.Proofs.Symbol.KeyText
