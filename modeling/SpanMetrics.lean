import SpanMetrics.Aggregation.Cycle
import SpanMetrics.Aggregation.Interleaving
import SpanMetrics.Aggregation.Operation
import SpanMetrics.Aggregation.State
import SpanMetrics.Aggregation.Totals
import SpanMetrics.Bson.Reader
import SpanMetrics.Bson.Value
import SpanMetrics.Bson.Writer
import SpanMetrics.Bytes.Base64
import SpanMetrics.Bytes.Lemmas
import SpanMetrics.Bytes.Varint
import SpanMetrics.Bytes.Words
import SpanMetrics.Counter
import SpanMetrics.Deflate.Bits
import SpanMetrics.Deflate.Code
import SpanMetrics.Deflate.Inflate
import SpanMetrics.Deflate.Lemmas
import SpanMetrics.Deflate.Matching
import SpanMetrics.Deflate.Token
import SpanMetrics.Double.Basic
import SpanMetrics.Double.Decimal
import SpanMetrics.Double.Rounding
import SpanMetrics.Duration
import SpanMetrics.Flusher.Basic
import SpanMetrics.Flusher.Calls
import SpanMetrics.Flusher.Loop
import SpanMetrics.Flusher.Turns
import SpanMetrics.Histogram.Basic
import SpanMetrics.Histogram.Creation
import SpanMetrics.Histogram.Error
import SpanMetrics.Histogram.History
import SpanMetrics.Histogram.Layout
import SpanMetrics.Histogram.Payload
import SpanMetrics.Histogram.Place
import SpanMetrics.Histogram.Table
import SpanMetrics.Histogram.Wire
import SpanMetrics.Host.Container
import SpanMetrics.Host.Distro
import SpanMetrics.Host.File
import SpanMetrics.Host.Identity
import SpanMetrics.Host.Load
import SpanMetrics.Host.Network
import SpanMetrics.Host.Path
import SpanMetrics.Log.Event
import SpanMetrics.Log.Logged
import SpanMetrics.Log.Subscriber
import SpanMetrics.Message.Document
import SpanMetrics.Message.Encoding
import SpanMetrics.Message.Metric
import SpanMetrics.Message.Snapshot
import SpanMetrics.Numeral
import SpanMetrics.Settings
import SpanMetrics.Table
import SpanMetrics.Tag.Arrangement
import SpanMetrics.Tag.Basic
import SpanMetrics.Tag.Set
import SpanMetrics.Text.Lines
import SpanMetrics.Text.Search
import SpanMetrics.Text.Quoted
import SpanMetrics.Transaction.Classification
import SpanMetrics.Transaction.Path
import SpanMetrics.Transaction.Registry
import SpanMetrics.Width
import SpanMetrics.Zlib.Compress
import SpanMetrics.Zlib.Stream
import SpanMetrics.Proofs.Response.Keys
import SpanMetrics.Proofs.Series.Sharing
import SpanMetrics.Proofs.Counter.Grouping
import SpanMetrics.Proofs.Response.FanOut
import SpanMetrics.Proofs.Aggregation.Steps
import SpanMetrics.Proofs.Aggregation.Responses
import SpanMetrics.Proofs.Aggregation.Spans
import SpanMetrics.Proofs.Deflate.Code
import SpanMetrics.Proofs.Deflate.Matching
import SpanMetrics.Proofs.Zlib.Blocks
import SpanMetrics.Proofs.Zlib.Encoder
import SpanMetrics.Proofs.Histogram.Payload
import SpanMetrics.Proofs.Histogram.Buckets
import SpanMetrics.Proofs.Histogram.Creation
import SpanMetrics.Proofs.Histogram.History
import SpanMetrics.Proofs.Histogram.Wire
import SpanMetrics.Proofs.Bson.RoundTrip
import SpanMetrics.Proofs.List.Distinct
import SpanMetrics.Proofs.Transaction.Offers
import SpanMetrics.Transaction.History
import SpanMetrics.Proofs.Transaction.History
import SpanMetrics.Message.Reading
import SpanMetrics.Proofs.Bson.Documents
import SpanMetrics.Proofs.Message.Tags
import SpanMetrics.Proofs.Message.Snapshot
import SpanMetrics.Proofs.Message.Layout
import SpanMetrics.Proofs.Message.Confinement
import SpanMetrics.Message.Delivery
import SpanMetrics.Proofs.Message.Counts
import SpanMetrics.Proofs.Message.Delivery
import SpanMetrics.Proofs.Interleaving.Steps
import SpanMetrics.Proofs.Interleaving.Cardinality
import SpanMetrics.Proofs.Aggregation.Counts
import SpanMetrics.Proofs.Interleaving.Conservation
import SpanMetrics.Proofs.Aggregation.Isolation
import SpanMetrics.Proofs.Aggregation.Overflow
import SpanMetrics.Proofs.Aggregation.Counters
import SpanMetrics.Proofs.Aggregation.Order
import SpanMetrics.Proofs.Message.Distinction
import SpanMetrics.Proofs.Zlib.Flush
import SpanMetrics.Proofs.Zlib.Marking
import SpanMetrics.Proofs.Histogram.Ceiling
import SpanMetrics.Proofs.Histogram.Accounts
import SpanMetrics.Proofs.Aggregation.Latencies
import SpanMetrics.Proofs.Message.Samples
import SpanMetrics.Proofs.Message.Failure
import SpanMetrics.Proofs.Text.Utf8
import SpanMetrics.Proofs.Text.Cut
import SpanMetrics.Proofs.Tag.Search
import SpanMetrics.Proofs.Tag.Canonical
import SpanMetrics.Proofs.Message.WireTags
import SpanMetrics.Proofs.Transaction.Path
import SpanMetrics.Proofs.Transaction.Naming
import SpanMetrics.Proofs.Message.Outcomes
import SpanMetrics.Proofs.Histogram.Resolution
import SpanMetrics.Proofs.Aggregation.Totals
import SpanMetrics.Proofs.Host.Container
import SpanMetrics.Proofs.Settings.Environment
import SpanMetrics.Proofs.Flusher.Calls
import SpanMetrics.Proofs.Flusher.Loops
import SpanMetrics.Proofs.Flusher.Steps
import SpanMetrics.Proofs.Flusher.Turns
import SpanMetrics.Proofs.Flusher.Actions
import SpanMetrics.Proofs.Settings.Interval
import SpanMetrics.Proofs.Host.Memory
import SpanMetrics.Proofs.Log.Projection
import SpanMetrics.Proofs.Host.Description
