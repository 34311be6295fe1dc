import CallAtlas.Diagnostic
import CallAtlas.Digest.Sha256
import CallAtlas.Dump.Block
import CallAtlas.Dump.Depth
import CallAtlas.Dump.Parse
import CallAtlas.Dump.Reader
import CallAtlas.Dump.Word
import CallAtlas.Failure
import CallAtlas.FunctionId
import CallAtlas.Graph.Basic
import CallAtlas.Graph.Cursor
import CallAtlas.Graph.Query
import CallAtlas.Ingest.Fold
import CallAtlas.Ingest.Records
import CallAtlas.Label
import CallAtlas.Location
import CallAtlas.Log
import CallAtlas.Options
import CallAtlas.Path
import CallAtlas.Proofs.Dump.Blame
import CallAtlas.Proofs.Dump.BlamedPlace
import CallAtlas.Proofs.Dump.Grammar
import CallAtlas.Proofs.Dump.LineEnds
import CallAtlas.Proofs.Dump.Nesting
import CallAtlas.Proofs.Dump.OpenBlocks
import CallAtlas.Proofs.Dump.Printing
import CallAtlas.Proofs.Dump.Reading
import CallAtlas.Proofs.Dump.RoundTrip
import CallAtlas.Proofs.Graph.Adjacency
import CallAtlas.Proofs.Graph.Attempts
import CallAtlas.Proofs.Graph.Counts
import CallAtlas.Proofs.Graph.Extension
import CallAtlas.Proofs.Graph.Frame
import CallAtlas.Proofs.Graph.Functions
import CallAtlas.Proofs.Graph.Growth
import CallAtlas.Proofs.Graph.History
import CallAtlas.Proofs.Graph.Identity
import CallAtlas.Proofs.Graph.Ledger
import CallAtlas.Proofs.Graph.Places
import CallAtlas.Proofs.Graph.Registry
import CallAtlas.Proofs.Graph.Sites
import CallAtlas.Proofs.Graph.Success
import CallAtlas.Proofs.Graph.Walks
import CallAtlas.Proofs.Ingest.Accounting
import CallAtlas.Proofs.Ingest.AcrossFiles
import CallAtlas.Proofs.Ingest.Attribution
import CallAtlas.Proofs.Ingest.Booking
import CallAtlas.Proofs.Ingest.Collecting
import CallAtlas.Proofs.Ingest.Entering
import CallAtlas.Proofs.Ingest.Faults
import CallAtlas.Proofs.Ingest.FileOrder
import CallAtlas.Proofs.Ingest.Lenience
import CallAtlas.Proofs.Ingest.Outcome
import CallAtlas.Proofs.Ingest.Passes
import CallAtlas.Proofs.Ingest.Recovery
import CallAtlas.Proofs.Ingest.Repetition
import CallAtlas.Proofs.Ingest.Requirements
import CallAtlas.Proofs.Ingest.Sessions
import CallAtlas.Proofs.Ingest.Steps
import CallAtlas.Proofs.Ingest.Stopping
import CallAtlas.Proofs.Ingest.Written
import CallAtlas.Proofs.Location.Labels
import CallAtlas.Proofs.Location.RoundTrip
import CallAtlas.Proofs.Location.Segments
import CallAtlas.Proofs.Location.Spelling
import CallAtlas.Proofs.Resolver.Memory
import CallAtlas.Proofs.Resolver.Segments
import CallAtlas.Proofs.Text.LastSeparator
import CallAtlas.Resolver
import CallAtlas.Schema
import CallAtlas.Session
import CallAtlas.Symbol.Code
import CallAtlas.Symbol.Declarators
import CallAtlas.Symbol.Demangle
import CallAtlas.Symbol.Grammar
import CallAtlas.Symbol.Page
import CallAtlas.Symbol.Part
import CallAtlas.Symbol.Scan
import CallAtlas.Symbol.Writer
import CallAtlas.Tally
import CallAtlas.Text.Blank
import CallAtlas.Text.Encoding
import CallAtlas.Text.Hex
import CallAtlas.Text.LineEnd
import CallAtlas.Text.Quoted
import CallAtlas.Text.Unprintable
import CallAtlas.Text.Utf8
import CallAtlas.Workspace
