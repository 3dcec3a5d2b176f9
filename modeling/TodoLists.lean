import TodoLists.Completion
import TodoLists.Main
import TodoLists.Range.Mixed
import TodoLists.Proofs.CommandLine.Asked
import TodoLists.Proofs.CommandLine.Failure
import TodoLists.Proofs.CommandLine.Frame
import TodoLists.Proofs.CommandLine.FrontEnds
import TodoLists.Proofs.CommandLine.OwnFiles
import TodoLists.Proofs.CommandLine.OwnRegistry
import TodoLists.Proofs.CommandLine.Refill
import TodoLists.Proofs.CommandLine.Registry
import TodoLists.Proofs.CommandLine.Removal
import TodoLists.Proofs.CommandLine.Separate
import TodoLists.Proofs.CommandLine.Settled
import TodoLists.Proofs.Completion
import TodoLists.Proofs.Config.ReadBack
import TodoLists.Proofs.Config.Refusal
import TodoLists.Proofs.Config.Registry
import TodoLists.Proofs.Desk.Changes
import TodoLists.Proofs.Desk.Failure
import TodoLists.Proofs.Desk.Frame
import TodoLists.Proofs.Desk.Refill
import TodoLists.Proofs.Desk.Runs
import TodoLists.Proofs.Desk.Tags
import TodoLists.Proofs.Disk.Existing
import TodoLists.Proofs.Disk.Frame
import TodoLists.Proofs.Disk.Names
import TodoLists.Proofs.Disk.Straight
import TodoLists.Proofs.Display
import TodoLists.Proofs.Filter.Built
import TodoLists.Proofs.Filter.RoundTrip
import TodoLists.Proofs.Item.QuickEntry
import TodoLists.Proofs.ItemList.History
import TodoLists.Proofs.Json.Numbers
import TodoLists.Proofs.Json.Order
import TodoLists.Proofs.Json.Texts
import TodoLists.Proofs.ListFile.Loaded
import TodoLists.Proofs.ListFile.Refusal
import TodoLists.Proofs.ListFile.Writable
import TodoLists.Proofs.Markup
import TodoLists.Proofs.Query.Composition
import TodoLists.Proofs.Query.EntryPoints
import TodoLists.Proofs.Query.ErrorPlace
import TodoLists.Proofs.Query.Lookahead
import TodoLists.Proofs.Query.Placement
import TodoLists.Proofs.Query.Progress
import TodoLists.Proofs.Query.Segments
import TodoLists.Proofs.Query.Sorted
import TodoLists.Proofs.Query.Spacing
import TodoLists.Proofs.Query.Support
import TodoLists.Proofs.Range.Contents
import TodoLists.Proofs.Range.Lattice
import TodoLists.Proofs.Range.Mixed
import TodoLists.Proofs.Shell.Dialogue
import TodoLists.Proofs.SortOrder.Composition
import TodoLists.Proofs.Status
