import PipeCodec.Text.Utf8
import PipeCodec.Text.Segment
import PipeCodec.Text.Blank
import PipeCodec.Text.Unprintable
import PipeCodec.Text.Quoted
import PipeCodec.Text.Parts
import PipeCodec.Decimal
import PipeCodec.Failure
import PipeCodec.Wire.Span
import PipeCodec.Wire.Error
import PipeCodec.Wire.Settings
import PipeCodec.Wire.Frame
import PipeCodec.Wire.Cursor
import PipeCodec.Field
import PipeCodec.Record
import PipeCodec.Message
import PipeCodec.Layout
import PipeCodec.Schema.Declaration
import PipeCodec.Schema.Basic
import PipeCodec.Link.Sink
import PipeCodec.Link.Feed
import PipeCodec.Link.Connection
import PipeCodec.Session
import PipeCodec.Program.Arguments
import PipeCodec.Program.Request
import PipeCodec.Program.Outcome
import PipeCodec.Program.Directory
import PipeCodec.Main
import PipeCodec.Proofs.Text.Utf8
import PipeCodec.Proofs.Decimal
import PipeCodec.Proofs.Wire.Reading
import PipeCodec.Proofs.Layout.Decoding
import PipeCodec.Proofs.Layout.Encoding
import PipeCodec.Proofs.Record
import PipeCodec.Proofs.Message
import PipeCodec.Proofs.Link.Receiving
import PipeCodec.Proofs.Schema.Builtin
import PipeCodec.Proofs.Link.Delivery
import PipeCodec.Proofs.Text.Blank
import PipeCodec.Proofs.Schema.Declaring
import PipeCodec.Proofs.Schema.Grammar
import PipeCodec.Proofs.Schema.Lookup
import PipeCodec.Proofs.Layout.Canonical
import PipeCodec.Proofs.Message.Canonical
import PipeCodec.Proofs.Schema.Dispatch
import PipeCodec.Proofs.Message.Dispatch
import PipeCodec.Proofs.Link.Exchange
import PipeCodec.Proofs.Message.Wording
import PipeCodec.Proofs.Session.Transcript
import PipeCodec.Proofs.Session.Running
import PipeCodec.Proofs.Decimal.Numeral
import PipeCodec.Proofs.Layout.Positional
import PipeCodec.Proofs.Message.Encoding
import PipeCodec.Proofs.Text.Lines
import PipeCodec.Proofs.Session.Answers
import PipeCodec.Proofs.Layout.Outcome
import PipeCodec.Proofs.Layout.Refinement
import PipeCodec.Proofs.Message.Refinement
import PipeCodec.Proofs.Wire.Text
import PipeCodec.Proofs.Message.ValidText
import PipeCodec.Proofs.Message.Truncation
import PipeCodec.Proofs.Field.Reads
import PipeCodec.Proofs.Schema.Joining
import PipeCodec.Proofs.Schema.Refusal
import PipeCodec.Proofs.Field.Writes
import PipeCodec.Proofs.Text.Quoted
import PipeCodec.Proofs.Layout.Display
import PipeCodec.Proofs.Schema.Listing
import PipeCodec.Proofs.Session.Limited
import PipeCodec.Proofs.Session.Prompting
import PipeCodec.Proofs.Wire.Scanning
import PipeCodec.Proofs.Decimal.Saturation
