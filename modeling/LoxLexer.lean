import LoxLexer.Diagnostic.Basic
import LoxLexer.Diagnostic.Lexical
import LoxLexer.Diagnostic.Sink
import LoxLexer.Element.Basic
import LoxLexer.Element.Grammar
import LoxLexer.Element.Placed
import LoxLexer.Element.Read
import LoxLexer.Number.Binary64
import LoxLexer.Number.Decimal
import LoxLexer.Number.Rounding
import LoxLexer.Number.Shortest
import LoxLexer.Proofs.Adjacent
import LoxLexer.Proofs.Blanking
import LoxLexer.Proofs.Closing
import LoxLexer.Proofs.Cursor
import LoxLexer.Proofs.Decoding
import LoxLexer.Proofs.Extent
import LoxLexer.Proofs.Faults
import LoxLexer.Proofs.LineBreak
import LoxLexer.Proofs.LineEnds
import LoxLexer.Proofs.LineNumbers
import LoxLexer.Proofs.LineTable
import LoxLexer.Proofs.LiteralOrder
import LoxLexer.Proofs.Lookahead
import LoxLexer.Proofs.Magnitudes
import LoxLexer.Proofs.MaximalMunch
import LoxLexer.Proofs.Nearest
import LoxLexer.Proofs.OpenElement
import LoxLexer.Proofs.Pass
import LoxLexer.Proofs.RoundTrip
import LoxLexer.Proofs.Sequence
import LoxLexer.Proofs.ShownLines
import LoxLexer.Proofs.ShownNumbers
import LoxLexer.Proofs.SinkRuns
import LoxLexer.Proofs.TextOrder
import LoxLexer.Proofs.VisibleRows
import LoxLexer.Report.Excerpt
import LoxLexer.Report.Sink
import LoxLexer.Report.Style
import LoxLexer.Scan
import LoxLexer.Scan.Pass
import LoxLexer.Source.File
import LoxLexer.Text.Bytes
import LoxLexer.Text.Characters
import LoxLexer.Text.CodePoints
import LoxLexer.Text.DefaultIgnorable
import LoxLexer.Text.GraphemeExtend
import LoxLexer.Text.Lines
import LoxLexer.Text.Quoted
import LoxLexer.Text.Unprintable
import LoxLexer.Text.Utf8
import LoxLexer.Token.Basic
import LoxLexer.Token.Keyword
import LoxLexer.Token.Kind
import LoxLexer.Token.Literal
import LoxLexer.Token.Punctuator
import LoxLexer.Token.Stream
