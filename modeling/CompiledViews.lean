import CompiledViews.Host.Shell.System
import CompiledViews.Main
import CompiledViews.Run.Cancellation
import CompiledViews.Session.Change
import CompiledViews.Proofs.Listing.Calls
import CompiledViews.Proofs.Listing.Jumps
import CompiledViews.Proofs.Text.Form
import CompiledViews.Proofs.Dump.Machine
import CompiledViews.Proofs.Dump.Reading
import CompiledViews.Proofs.Text.Occurrence
import CompiledViews.Proofs.Dump.OneLine
import CompiledViews.Proofs.Dump.Javap.OneLine
import CompiledViews.Proofs.Dump.Javap.LineTable
import CompiledViews.Proofs.Dump.Dexdump.OneLine
import CompiledViews.Proofs.Dump.Oatdump.OneLine
import CompiledViews.Proofs.Listing.Rows
import CompiledViews.Proofs.Run.Cost
import CompiledViews.Proofs.Run.Stages
import CompiledViews.Proofs.Run.Ending
import CompiledViews.Proofs.Run.Progress
import CompiledViews.Proofs.Run.Deliveries
import CompiledViews.Proofs.Run.Debts
import CompiledViews.Proofs.Run.Contents
import CompiledViews.Proofs.Run.Record
import CompiledViews.Proofs.Run.Terminal
import CompiledViews.Proofs.Run.Cancelled
import CompiledViews.Proofs.Run.Threads
import CompiledViews.Proofs.Run.MainPath
import CompiledViews.Proofs.Run.Steps
import CompiledViews.Proofs.Run.Outcome
import CompiledViews.Proofs.Run.Order
import CompiledViews.Proofs.Run.Scripted
import CompiledViews.Proofs.Run.Sequential
import CompiledViews.Proofs.Run.Schedule
import CompiledViews.Proofs.Dump.Javap.Sections
import CompiledViews.Proofs.Dump.Dexdump.OwnLines
import CompiledViews.Proofs.Dump.Oatdump.OwnLines
import CompiledViews.Proofs.Dump.Diagnostics
import CompiledViews.Proofs.Dump.Composition
import CompiledViews.Proofs.Dump.Dexdump.RoundTrip
import CompiledViews.Proofs.Dump.Javap.RoundTrip
import CompiledViews.Proofs.Listing.Arrows
import CompiledViews.Proofs.Dump.Oatdump.Composition
import CompiledViews.Proofs.Listing.SourceLines
import CompiledViews.Proofs.Listing.Styles
import CompiledViews.Proofs.Dump.Oatdump.Printed
import CompiledViews.Proofs.Dump.Oatdump.PrintedLines
import CompiledViews.Proofs.Dump.Oatdump.RoundTrip
import CompiledViews.Proofs.Listing.Stacking
import CompiledViews.Proofs.Listing.CallJumps
import CompiledViews.Proofs.Dump.Javap.Branches
import CompiledViews.Proofs.Listing.Branches
import CompiledViews.Proofs.Dump.Descriptor.ClassNames
import CompiledViews.Proofs.Dump.LineEnds
import CompiledViews.Proofs.Dump.Descriptor.Bytewise
import CompiledViews.Proofs.Run.Tracker
import CompiledViews.Proofs.Host.Output
import CompiledViews.Proofs.Run.Aborting
import CompiledViews.Proofs.FileTree.Path
import CompiledViews.Proofs.FileTree.Places
import CompiledViews.Proofs.FileTree.Following
import CompiledViews.Proofs.FileTree.Entries
import CompiledViews.Proofs.Toolchain.Cleaning
import CompiledViews.Proofs.Text.Order
import CompiledViews.Proofs.Toolchain.ClassFiles
import CompiledViews.Proofs.Toolchain.Newest
import CompiledViews.Proofs.Toolchain.Stripping
import CompiledViews.Proofs.Settings.Load
import CompiledViews.Proofs.Event.Frame
import CompiledViews.Proofs.Event.Wire
import CompiledViews.Proofs.LineMap
import CompiledViews.Proofs.Text.Cursor
