import ThreeAddress.Command.Writer
import ThreeAddress.CommandLine.Run
import ThreeAddress.Main
import ThreeAddress.Report
import ThreeAddress.Proofs.Symbol.Chain
import ThreeAddress.Proofs.Token.Longest
import ThreeAddress.Proofs.Token.Words
import ThreeAddress.Proofs.Command.Accepts
import ThreeAddress.Proofs.Command.Language
import ThreeAddress.Proofs.Report.Line
import ThreeAddress.Proofs.Report.RoundTrip
import ThreeAddress.Proofs.Replay.Execution
import ThreeAddress.Proofs.Replay.Capacity
import ThreeAddress.Proofs.Replay.Words
import ThreeAddress.Proofs.Report.Replayed
import ThreeAddress.Proofs.Command.OneLine
import ThreeAddress.Proofs.Command.Recovery
import ThreeAddress.Proofs.Token.Place
import ThreeAddress.Proofs.Command.Rejects
import ThreeAddress.Proofs.Command.FirstFault
import ThreeAddress.Proofs.Replay.Pieces
import ThreeAddress.Proofs.Replay.Lookups
import ThreeAddress.Proofs.Report.Faithful
import ThreeAddress.Proofs.Replay.Independence
import ThreeAddress.Proofs.Unit.Session
import ThreeAddress.Proofs.CommandLine.Output
import ThreeAddress.Proofs.Diagnostic.Locus
import ThreeAddress.Proofs.Token.Tiling
import ThreeAddress.Proofs.Command.Place
import ThreeAddress.Proofs.Command.Written
import ThreeAddress.Proofs.CommandLine.Failure
import ThreeAddress.Proofs.Code.Offers
import ThreeAddress.Proofs.Command.Layout
import ThreeAddress.Proofs.Symbol.Partition
import ThreeAddress.Proofs.Command.Joined
import ThreeAddress.Proofs.Report.Sections
import ThreeAddress.Proofs.Report.Row
import ThreeAddress.Proofs.Report.BadRow
import ThreeAddress.Proofs.Report.Kept
import ThreeAddress.Proofs.Unit.Numbering
import ThreeAddress.Proofs.Replay.Snapshot
import ThreeAddress.Proofs.Report.Declared
import ThreeAddress.Proofs.Token.Dump
import ThreeAddress.Proofs.Symbol.Stacks
