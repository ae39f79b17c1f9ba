import ClusterWatch.Main
import ClusterWatch.Proofs.Poller.Turn
import ClusterWatch.Proofs.World.Ownership
import ClusterWatch.Proofs.World.Lane
import ClusterWatch.Proofs.World.Account
import ClusterWatch.Proofs.World.Loops
import ClusterWatch.Proofs.World.Views
import ClusterWatch.Proofs.World.Teardown
import ClusterWatch.Proofs.Json.Grammar
import ClusterWatch.Proofs.Json.Reads
import ClusterWatch.Proofs.Json.Numeral
import ClusterWatch.Proofs.Json.StringLiteral
import ClusterWatch.Proofs.Json.Skip
import ClusterWatch.Proofs.Json.Container
import ClusterWatch.Proofs.Json.Shape
import ClusterWatch.Proofs.Cluster.Wire
import ClusterWatch.Proofs.Source.Unwrap
import ClusterWatch.Proofs.Source.Form
import ClusterWatch.Proofs.Source.Handshake
import ClusterWatch.Proofs.World.Alike
import ClusterWatch.Proofs.World.Renewal
import ClusterWatch.Proofs.World.Stands
import ClusterWatch.Proofs.World.Timetable
import ClusterWatch.Proofs.World.Apart
import ClusterWatch.Proofs.World.Updates
import ClusterWatch.Proofs.Json.Document
import ClusterWatch.Proofs.Json.Encode
import ClusterWatch.Proofs.Snapshot.RoundTrip
import ClusterWatch.Proofs.Json.Layout
import ClusterWatch.Proofs.Snapshot.Stream
import ClusterWatch.Proofs.Source.Call
import ClusterWatch.Proofs.Source.Delivery
import ClusterWatch.Proofs.Source.Exchange
import ClusterWatch.Proofs.Session.Report
import ClusterWatch.Proofs.Session.Status
import ClusterWatch.Proofs.World.Watching
import ClusterWatch.Proofs.Session.Watch
import ClusterWatch.Proofs.CommandLine.Spelling
import ClusterWatch.Proofs.CommandLine.Options
import ClusterWatch.Proofs.CommandLine.Meaning
import ClusterWatch.Proofs.Binary64.Nearest
import ClusterWatch.Proofs.Binary64.Tenth
import ClusterWatch.Proofs.ByteSize.Amount
import ClusterWatch.Proofs.Decimal.Numeral
import ClusterWatch.Proofs.ByteSize.Shape
import ClusterWatch.Proofs.ByteSize.Reading
import ClusterWatch.Proofs.ByteSize.Count
import ClusterWatch.Proofs.ByteSize.Width
import ClusterWatch.Proofs.Text.Lines
import ClusterWatch.Proofs.Snapshot.Table
import ClusterWatch.Proofs.Snapshot.Columns
import ClusterWatch.LockedView
import ClusterWatch.Proofs.LockedView.Moves
import ClusterWatch.Proofs.LockedView.Exclusion
import ClusterWatch.Proofs.LockedView.Record
import ClusterWatch.Proofs.LockedView.Progress
import ClusterWatch.Proofs.LockedView.Barrier
import ClusterWatch.Proofs.LockedView.Replay
