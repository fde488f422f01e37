import AmLang.Check.Assigned
import AmLang.Check.Body
import AmLang.Check.Members
import AmLang.Check.Mock
import AmLang.Check.Overload
import AmLang.Check.Rules
import AmLang.Check.State
import AmLang.Check.Tree
import AmLang.Check.Unit
import AmLang.Cli.Arguments
import AmLang.Cli.Command
import AmLang.Cli.Host
import AmLang.Cli.Workspace
import AmLang.Compilation.Build
import AmLang.Compilation.Front
import AmLang.Compilation.Unit
import AmLang.Data.Json
import AmLang.Diagnostic.Basic
import AmLang.Diagnostic.Render
import AmLang.Diagnostic.Suggest
import AmLang.Emit.Body
import AmLang.Emit.Convert
import AmLang.Emit.Layout
import AmLang.Emit.Link
import AmLang.Emit.Program
import AmLang.Emit.State
import AmLang.Emit.Unit
import AmLang.Feature.Filter
import AmLang.Generic.Instances
import AmLang.Generic.Uses
import AmLang.Log.Filter
import AmLang.Log.Line
import AmLang.Log.Logger
import AmLang.Log.Record
import AmLang.Main
import AmLang.Numeric.BinaryFloat
import AmLang.Numeric.Double
import AmLang.Numeric.Significant
import AmLang.Proofs.Completion
import AmLang.Proofs.Dispatch.Build
import AmLang.Proofs.Dispatch.Builtins
import AmLang.Proofs.Dispatch.Declared
import AmLang.Proofs.Dispatch.Layout
import AmLang.Proofs.Dispatch.Order
import AmLang.Proofs.Dispatch.Resolution
import AmLang.Proofs.Generic.Closed
import AmLang.Proofs.Generic.Steps
import AmLang.Proofs.Generic.Unbounded
import AmLang.Proofs.Run.Returns
import AmLang.Proofs.Symbols.CNames
import AmLang.Proofs.Symbols.Steps
import AmLang.Proofs.Syntax.IntLiteralRange
import AmLang.Proofs.Syntax.TokenLayout
import AmLang.Proofs.Types.Ancestry
import AmLang.Run.Eval
import AmLang.Run.Machine
import AmLang.Run.Program
import AmLang.Run.Value
import AmLang.Symbols.Builder
import AmLang.Symbols.Declarations
import AmLang.Symbols.Lookup
import AmLang.Symbols.Resolve
import AmLang.Symbols.Symbol
import AmLang.Symbols.Table
import AmLang.Syntax.Ast
import AmLang.Syntax.Lexer
import AmLang.Syntax.NumberLiteral
import AmLang.Syntax.Parser.Grammar
import AmLang.Syntax.Parser.Monad
import AmLang.Syntax.Printer
import AmLang.Syntax.Source
import AmLang.Syntax.Token
import AmLang.Text.Bytes
import AmLang.Types.Conversion
import AmLang.Types.Ty
import AmLang.View.Symbols
import AmLang.View.Syntax
import AmLang.View.Token
import AmLang.Proofs.Run.Operands
import AmLang.Proofs.Check.OverloadChoice
import AmLang.Proofs.Emit.CIntegers
import AmLang.Proofs.Emit.Arithmetic
import AmLang.Proofs.Syntax.ParserForward
import AmLang.Proofs.Syntax.ParserProgress
import AmLang.Proofs.Syntax.ParserLoops
import AmLang.Proofs.Emit.CStrings
import AmLang.Proofs.Emit.ModuleNames
import AmLang.Proofs.Check.CaseKeys
import AmLang.Proofs.Dispatch.Cycles
import AmLang.Proofs.Syntax.DecimalLiterals
import AmLang.Proofs.Syntax.NumberExpressions
import AmLang.Proofs.Run.CountedLoops
import AmLang.Proofs.Run.Switches
import AmLang.Proofs.Syntax.RadixLiterals
import AmLang.Proofs.Syntax.LazyLexing
import AmLang.Proofs.Syntax.Utf8Literals
import AmLang.Proofs.Syntax.PrecedenceClimbing
import AmLang.Proofs.Syntax.SourcePositions
import AmLang.Proofs.Run.StringBytes
import AmLang.Proofs.Feature.Filtering
import AmLang.Proofs.Syntax.IdentifierTokens
import AmLang.Proofs.Syntax.TypeParsing
import AmLang.Proofs.Syntax.TypeRoundTrip
import AmLang.Proofs.Log.GlobalLevel
import AmLang.Proofs.Run.Boxing
import AmLang.Proofs.Types.Substitution
import AmLang.Proofs.Types.SuperChain
import AmLang.Proofs.Check.MethodSearch
import AmLang.Proofs.Diagnostic.EditDistance
import AmLang.Proofs.Emit.IntLiterals
import AmLang.Proofs.Types.ConversionOrder
import AmLang.Proofs.Check.TypeInference
import AmLang.Proofs.Types.AncestorSubstitution
import AmLang.Proofs.Run.Closures
