import KeyedRows.Bytes.Basic
import KeyedRows.Bytes.Hex
import KeyedRows.Bytes.Successor
import KeyedRows.Command.Files
import KeyedRows.Command.Invocation
import KeyedRows.Command.Report
import KeyedRows.Command.Run
import KeyedRows.Cursor
import KeyedRows.Cursor.Run
import KeyedRows.Cursor.Unread
import KeyedRows.Error
import KeyedRows.Guarded.Column
import KeyedRows.Guarded.Decoder
import KeyedRows.Guarded.Plan
import KeyedRows.Guarded.Reader
import KeyedRows.Main
import KeyedRows.Number.Binary
import KeyedRows.Number.Integer
import KeyedRows.Number.Literal
import KeyedRows.Number.Nearest
import KeyedRows.Number.Shortest
import KeyedRows.Number.SignBit
import KeyedRows.Proofs.Bytes.Hex
import KeyedRows.Proofs.Bytes.Lexicographic
import KeyedRows.Proofs.Bytes.Scan
import KeyedRows.Proofs.Bytes.Successor
import KeyedRows.Proofs.Column.Accepting
import KeyedRows.Proofs.Column.Cutting
import KeyedRows.Proofs.Column.KeyOrder
import KeyedRows.Proofs.Column.Reading
import KeyedRows.Proofs.Column.Skipping
import KeyedRows.Proofs.Column.Width
import KeyedRows.Proofs.Command.Arguments
import KeyedRows.Proofs.Command.Covering
import KeyedRows.Proofs.Command.Outcome
import KeyedRows.Proofs.Command.Printing
import KeyedRows.Proofs.Command.RoundTrip
import KeyedRows.Proofs.Command.Spelling
import KeyedRows.Proofs.Command.Storing
import KeyedRows.Proofs.Cursor.ReadingBack
import KeyedRows.Proofs.Cursor.Running
import KeyedRows.Proofs.Error.Message
import KeyedRows.Proofs.Error.Outcome
import KeyedRows.Proofs.Group.Accepting
import KeyedRows.Proofs.Group.Groupwise
import KeyedRows.Proofs.Group.Order
import KeyedRows.Proofs.Group.Reading
import KeyedRows.Proofs.Guarded.Column
import KeyedRows.Proofs.Guarded.Decoder
import KeyedRows.Proofs.Guarded.Plan
import KeyedRows.Proofs.Guarded.Reader
import KeyedRows.Proofs.Number.Integer
import KeyedRows.Proofs.Reader.Consuming
import KeyedRows.Proofs.Reader.Cutting
import KeyedRows.Proofs.Reader.Sequence
import KeyedRows.Proofs.Reader.Shadowing
import KeyedRows.Proofs.Reader.Taking
import KeyedRows.Proofs.Record.Slots
import KeyedRows.Proofs.Region.Room
import KeyedRows.Proofs.Region.Running
import KeyedRows.Proofs.Row.Accepting
import KeyedRows.Proofs.Row.Conforming
import KeyedRows.Proofs.Row.Frame
import KeyedRows.Proofs.Row.FullScan
import KeyedRows.Proofs.Row.Half
import KeyedRows.Proofs.Row.KeyOrder
import KeyedRows.Proofs.Row.Layout
import KeyedRows.Proofs.Row.Merging
import KeyedRows.Proofs.Row.NextText
import KeyedRows.Proofs.Row.PrefixFree
import KeyedRows.Proofs.Row.PrefixScan
import KeyedRows.Proofs.Row.Refusing
import KeyedRows.Proofs.Row.Rewriting
import KeyedRows.Proofs.Row.Room
import KeyedRows.Proofs.Row.RoundTrip
import KeyedRows.Proofs.Row.Scrutiny
import KeyedRows.Proofs.Row.Selection
import KeyedRows.Proofs.Row.TextPrefix
import KeyedRows.Proofs.Row.Typing
import KeyedRows.Proofs.Row.Written
import KeyedRows.Proofs.Schema.Checked
import KeyedRows.Proofs.Schema.Entry
import KeyedRows.Proofs.Schema.Grammar
import KeyedRows.Proofs.Schema.Partition
import KeyedRows.Proofs.Schema.Spelling
import KeyedRows.Proofs.Schema.Stored
import KeyedRows.Proofs.Text.Splitting
import KeyedRows.Proofs.Text.Utf8
import KeyedRows.Proofs.Value.LineBreak
import KeyedRows.Proofs.Value.ListText
import KeyedRows.Record
import KeyedRows.Region
import KeyedRows.Region.Contents
import KeyedRows.Region.Run
import KeyedRows.Row.Conforming
import KeyedRows.Row.Decoder
import KeyedRows.Row.Encoder
import KeyedRows.Row.Frame
import KeyedRows.Row.Group
import KeyedRows.Row.Groupwise
import KeyedRows.Row.KeyColumn
import KeyedRows.Row.Layout
import KeyedRows.Row.Marker
import KeyedRows.Row.Order
import KeyedRows.Row.Scrutiny
import KeyedRows.Row.Sortable
import KeyedRows.Row.ValueColumn
import KeyedRows.Schema.Catalog
import KeyedRows.Schema.Column
import KeyedRows.Schema.ColumnType
import KeyedRows.Schema.Estimate
import KeyedRows.Schema.Grammar
import KeyedRows.Schema.Plan
import KeyedRows.Schema.Spec
import KeyedRows.Settings
import KeyedRows.Text.Blank
import KeyedRows.Text.GraphemeExtend
import KeyedRows.Text.Padded
import KeyedRows.Text.Printable
import KeyedRows.Text.Quoted
import KeyedRows.Text.Utf8
import KeyedRows.Value.Basic
import KeyedRows.Value.Text
