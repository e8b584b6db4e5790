import RowStream.Main
import RowStream.Value.Write
import RowStream.Proofs.Stream.ReadBack
import RowStream.Proofs.Stream.Parameters
import RowStream.Proofs.Stream.SingleRow
import RowStream.Proofs.Service.Rows
import RowStream.Proofs.Declaration.Token
import RowStream.Proofs.Declaration.Written
import RowStream.Proofs.Text.Numeral
import RowStream.Proofs.Number.Decimal
import RowStream.Proofs.Value.Parse
import RowStream.Proofs.Column.Settled
import RowStream.Proofs.Column.Declared
import RowStream.Proofs.Column.RoundTrip
import RowStream.Proofs.Column.Config
import RowStream.Proofs.Column.Operation
import RowStream.Proofs.Service.Transparency
import RowStream.Proofs.Service.Answer
import RowStream.Proofs.Column.EnumDefault
import RowStream.Proofs.Service.WholeResult
import RowStream.Proofs.Column.EnumOptions
import RowStream.Proofs.Column.EnumRoundTrip
import RowStream.Proofs.Column.Piece
import RowStream.Proofs.Table.Inline
import RowStream.Proofs.Table.Lines
import RowStream.Proofs.Column.Normal
import RowStream.Proofs.CommandLine.Schema
import RowStream.Proofs.Stream.SideBySide
import RowStream.Proofs.Stream.Calls
import RowStream.Proofs.Stream.Paging
import RowStream.Proofs.Stream.Protocol
import RowStream.Proofs.Service.Eviction
import RowStream.Proofs.Wire.Varint
import RowStream.Proofs.Wire.Writing
import RowStream.Proofs.Wire.Sized
import RowStream.Proofs.Number.Rational
import RowStream.Proofs.Number.Literal
import RowStream.Proofs.Value.WholeNumber
import RowStream.Proofs.Value.DecimalNumber
import RowStream.Proofs.Column.Rebuilt
import RowStream.Proofs.Table.Defaults
import RowStream.Proofs.Value.Ticks
import RowStream.Proofs.Column.Temporal
import RowStream.Proofs.Wire.Operation
import RowStream.Proofs.Defaults
import RowStream.Proofs.Source.Cursor
import RowStream.Proofs.Declaration.Bytes
import RowStream.Proofs.Declaration.Split
import RowStream.Proofs.Column.Layout
import RowStream.Proofs.Value.Rescaling
import RowStream.Proofs.Value.JsonNumber
