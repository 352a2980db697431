import MetricAgent.Aggregator.Running
import MetricAgent.Metric.Grouper
import MetricAgent.Metric.JsonLine
import MetricAgent.Metric.Keyed
import MetricAgent.Metric.KindReading
import MetricAgent.Metric.Rename
import MetricAgent.Output
import MetricAgent.Processor.Dispatcher
import MetricAgent.Signal
import MetricAgent.Source.Constant
import MetricAgent.Text.Quoted
import MetricAgent.Tick.Ticker
import MetricAgent.Time.DurationText
import MetricAgent.Time.Precision
import MetricAgent.Yaml.Cursor
import MetricAgent.Yaml.Scalar
import MetricAgent.Yaml.Scanner
import MetricAgent.Yaml.Node
import MetricAgent.Number.DecimalText
import MetricAgent.Yaml.Atom
import MetricAgent.Yaml.Tree
import MetricAgent.Yaml.Value
import MetricAgent.Yaml.Record
import MetricAgent.Yaml.TreeReading
import MetricAgent.Yaml.ValueReading
import MetricAgent.Files.Tree
import MetricAgent.Plugin.Options
import MetricAgent.Plugin.Registry
import MetricAgent.Net.SocketAddress
import MetricAgent.Config.Basic
import MetricAgent.Config.Check
import MetricAgent.Config.Loading
import MetricAgent.Aggregator.Stage
import MetricAgent.Pipeline.Basic
import MetricAgent.Pipeline.Run
import MetricAgent.CommandLine
import MetricAgent.Program
import MetricAgent.Main
import MetricAgent.Proofs.Buffer.Contents
import MetricAgent.Proofs.Buffer.Valid
import MetricAgent.Proofs.Buffer.History
import MetricAgent.Proofs.Buffer.Serial
import MetricAgent.Proofs.Buffer.Rejection
import MetricAgent.Proofs.Buffer.Turnover
import MetricAgent.Proofs.Output.Delivery
import MetricAgent.Processor.Stopping
import MetricAgent.Proofs.Processor.Steps
import MetricAgent.Proofs.Processor.Results
import MetricAgent.Proofs.Processor.Order
import MetricAgent.Proofs.Aggregator.Single
import MetricAgent.Proofs.Aggregator.Overdue
import MetricAgent.Proofs.Aggregator.Lateness
import MetricAgent.Proofs.Output.Flushing
import MetricAgent.Proofs.Output.Wakes
import MetricAgent.Proofs.Output.Attempts
import MetricAgent.Proofs.Output.Batches
import MetricAgent.Proofs.Metric.Tags
import MetricAgent.Proofs.Metric.Fields
import MetricAgent.Proofs.Metric.Identity
import MetricAgent.Proofs.Metric.Lines
import MetricAgent.Pipeline.Flow
import MetricAgent.Proofs.Pipeline.Tasks
import MetricAgent.Proofs.Pipeline.Outputs
import MetricAgent.Proofs.Pipeline.Delivery
import MetricAgent.Proofs.Tick.Grid
import MetricAgent.Proofs.Metric.Grouping
import MetricAgent.Proofs.Aggregator.Merging
import MetricAgent.Proofs.Aggregator.Silence
import MetricAgent.Proofs.Aggregator.Collisions
import MetricAgent.Proofs.Tick.Waits
import MetricAgent.Proofs.Tick.Resuming
import MetricAgent.Proofs.Signal.Acts
import MetricAgent.Proofs.Signal.Attendance
import MetricAgent.Proofs.Signal.Counting
import MetricAgent.Proofs.Signal.Waiting
import MetricAgent.Proofs.Telemetry
import MetricAgent.Proofs.Output.Exports
import MetricAgent.Proofs.Processor.Permits
import MetricAgent.Proofs.Processor.Progress
import MetricAgent.Proofs.Processor.Unordered
import MetricAgent.Proofs.Config.Fragments
import MetricAgent.Proofs.Config.Valid
import MetricAgent.Proofs.Pipeline.Building
import MetricAgent.Proofs.Files.Paths
import MetricAgent.Proofs.Json.Documents
import MetricAgent.Proofs.Json.Framing
import MetricAgent.Proofs.Json.Scalars
import MetricAgent.Pipeline.Service
import MetricAgent.Proofs.Pipeline.Calls
import MetricAgent.Proofs.Pipeline.Lifecycle
import MetricAgent.Proofs.Metric.Integrity
import MetricAgent.Proofs.Aggregator.Integrity
import MetricAgent.Proofs.Output.Integrity
import MetricAgent.Proofs.Processor.Integrity
import MetricAgent.Proofs.Plugin.Integrity
import MetricAgent.Proofs.Pipeline.Integrity
import MetricAgent.Proofs.Pipeline.Draining
import MetricAgent.Proofs.Pipeline.Stopping
import MetricAgent.Proofs.Pipeline.Returning
import MetricAgent.Proofs.Buffer.Overflow
import MetricAgent.Proofs.Aggregator.Skipping
import MetricAgent.Proofs.Aggregator.Accounts
import MetricAgent.Proofs.Aggregator.Numbering
import MetricAgent.Proofs.Output.Polling
import MetricAgent.Proofs.Filter.Selection
import MetricAgent.Proofs.Filter.Renaming
import MetricAgent.Proofs.Metric.Stamps
import MetricAgent.Proofs.Text.SortedPairs
import MetricAgent.Proofs.Text.ByteOrder
import MetricAgent.Proofs.Config.Violations
import MetricAgent.Proofs.Config.Composition
import MetricAgent.Proofs.Source.Calls
import MetricAgent.Proofs.Source.Gathering
import MetricAgent.Proofs.Aggregator.Kinds
import MetricAgent.Proofs.Metric.Encoding
import MetricAgent.Proofs.Time.Rounding
import MetricAgent.Proofs.Metric.Units
