import XmlWorkload.Main
import XmlWorkload.Json.Reader
import XmlWorkload.Output.Memory
import XmlWorkload.Sink.Recorder
import XmlWorkload.Text.Decoded
import XmlWorkload.Proofs.Markup.Basic
import XmlWorkload.Proofs.Markup.Reference
import XmlWorkload.Proofs.Output.Reliable
import XmlWorkload.Proofs.Sink.Draft
import XmlWorkload.Proofs.Sink.Writing
import XmlWorkload.Proofs.Document.Chain
import XmlWorkload.Proofs.Template.ResolvedTexts
import XmlWorkload.Proofs.Document.Growth
import XmlWorkload.Proofs.Document.Emitting
import XmlWorkload.Proofs.Document.Closing
import XmlWorkload.Proofs.Document.History
import XmlWorkload.Proofs.Disk.Writer
import XmlWorkload.Proofs.Document.OnDisk
import XmlWorkload.Proofs.Set.Service
import XmlWorkload.Proofs.Set.Sound
import XmlWorkload.Proofs.Set.Operations
import XmlWorkload.Proofs.Set.Making
import XmlWorkload.Proofs.Set.Fate
import XmlWorkload.Proofs.Disk.Place
import XmlWorkload.Proofs.Run.Range
import XmlWorkload.Proofs.Run.Files
import XmlWorkload.Proofs.Set.Live
import XmlWorkload.Proofs.Run.Crew
import XmlWorkload.Proofs.Run.Verdict
import XmlWorkload.Proofs.Run.Closing
import XmlWorkload.Proofs.Run.Outcome
import XmlWorkload.Proofs.Markup.Reader
import XmlWorkload.Proofs.Markup.Reading
import XmlWorkload.Proofs.Document.Decoding
import XmlWorkload.Proofs.Sink.Recording
import XmlWorkload.Proofs.Document.Recorded
import XmlWorkload.Proofs.Template.Refilling
import XmlWorkload.Proofs.Template.Depth
import XmlWorkload.Proofs.Template.Outline
import XmlWorkload.Proofs.Pattern.Characters
import XmlWorkload.Proofs.Pattern.InPlace
import XmlWorkload.Proofs.Pattern.Placeholders
import XmlWorkload.Proofs.Workload.Filling
import XmlWorkload.Proofs.Document.Alike
import XmlWorkload.Proofs.Sink.Alike
import XmlWorkload.Proofs.Disk.Twin
import XmlWorkload.Proofs.Document.Twin
import XmlWorkload.Proofs.Set.Mirror
import XmlWorkload.Proofs.Set.LeftBehind
import XmlWorkload.Proofs.Disk.Creatable
import XmlWorkload.Proofs.Run.Apart
import XmlWorkload.Proofs.Run.Steady
import XmlWorkload.Proofs.Run.Traced
import XmlWorkload.Proofs.Run.Counted
import XmlWorkload.Proofs.Run.Schedule
import XmlWorkload.Proofs.Document.Parting
import XmlWorkload.Proofs.Sink.Parting
import XmlWorkload.Proofs.Sink.Watched
import XmlWorkload.Proofs.Document.Calls
import XmlWorkload.Proofs.Document.Lifecycle
import XmlWorkload.Proofs.Sink.Request
import XmlWorkload.Proofs.Sink.Log
import XmlWorkload.Proofs.Sink.Agreement
import XmlWorkload.Proofs.Sink.Refusal
import XmlWorkload.Proofs.Markup.Joining
import XmlWorkload.Proofs.Sink.Sound
import XmlWorkload.Proofs.Sink.WellFormed
import XmlWorkload.Proofs.Output.Limited
import XmlWorkload.Proofs.Document.Delivery
import XmlWorkload.Proofs.Document.PathRequest
import XmlWorkload.Proofs.Document.Stacked
import XmlWorkload.Proofs.Document.Bindings
import XmlWorkload.Proofs.Document.OpenPaths
import XmlWorkload.Proofs.Disk.Room
import XmlWorkload.Proofs.Document.Kept
import XmlWorkload.Proofs.Set.Ledger
import XmlWorkload.Proofs.Set.Intact
import XmlWorkload.Proofs.Set.Adding
import XmlWorkload.Proofs.Set.Draining
import XmlWorkload.Proofs.Set.Session
import XmlWorkload.Proofs.Set.Unclosed
import XmlWorkload.Proofs.Set.Paths
import XmlWorkload.Proofs.Set.Isolation
import XmlWorkload.Proofs.Run.Shares
import XmlWorkload.Proofs.Markup.Names
import XmlWorkload.Proofs.Markup.Normalizing
import XmlWorkload.Proofs.Disk.Ways
import XmlWorkload.Proofs.Disk.Ready
import XmlWorkload.Proofs.Set.Frame
import XmlWorkload.Proofs.Run.Carried
import XmlWorkload.Proofs.Run.Effect
import XmlWorkload.Proofs.Template.Commuting
import XmlWorkload.Proofs.Template.Describing
import XmlWorkload.Proofs.Run.Failures
import XmlWorkload.Proofs.Space.Requests
import XmlWorkload.Proofs.Template.Traversal
import XmlWorkload.Proofs.Run.Seeds
