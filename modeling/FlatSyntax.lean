import FlatSyntax.Main
import FlatSyntax.Proofs.Parser.OpaqueText
import FlatSyntax.Proofs.Parser.Windows
import FlatSyntax.Proofs.Scanner.Group
import FlatSyntax.Proofs.Scanner.Tiling
import FlatSyntax.Scanner.Stream
import FlatSyntax.Proofs.Scanner.Position
import FlatSyntax.Proofs.Lexeme.Fault
import FlatSyntax.Proofs.Scanner.Diagnosis
import FlatSyntax.Proofs.Lexeme.Extension
import FlatSyntax.Proofs.Scanner.Resumption
import FlatSyntax.Proofs.Parser.Registration
import FlatSyntax.Proofs.Parser.Precedence
import FlatSyntax.Proofs.Lexeme.Contents
import FlatSyntax.Proofs.Scanner.Contents
import FlatSyntax.Proofs.Lexeme.Boundary
import FlatSyntax.Proofs.Scanner.Layout
import FlatSyntax.Proofs.Scanner.Respacing
import FlatSyntax.Proofs.Parser.Anchoring
import FlatSyntax.Proofs.Parser.Locality
import FlatSyntax.Proofs.Parser.Separation
import FlatSyntax.Proofs.CommandLine.Agreement
import FlatSyntax.Proofs.Scanner.Streaming
import FlatSyntax.Proofs.Text.Quoted
import FlatSyntax.Proofs.Text.Terminal
import FlatSyntax.Proofs.Node.Listing
import FlatSyntax.Proofs.Scanner.Span
import FlatSyntax.Proofs.Scanner.Literal
import FlatSyntax.Proofs.Lexeme.GenericArguments
import FlatSyntax.Proofs.Scanner.GenericArguments
import FlatSyntax.Proofs.Parser.Pairs
import FlatSyntax.Proofs.Parser.Progress
import FlatSyntax.Proofs.Parser.Markers
import FlatSyntax.Proofs.Lexeme.OpenBrackets
import FlatSyntax.Proofs.Scanner.Progress
import FlatSyntax.Proofs.Completion
import FlatSyntax.Proofs.Summary
import FlatSyntax.Proofs.SymbolTable
import FlatSyntax.Proofs.Parser.IncludePath
import FlatSyntax.Proofs.Text.Decimal
import FlatSyntax.Proofs.Scanner.Number
import FlatSyntax.Proofs.CommandLine.Lines
