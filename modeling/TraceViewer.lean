import TraceViewer.Main
import TraceViewer.Proofs.Parser.Ledger
import TraceViewer.Proofs.Parser.Retiring
import TraceViewer.Proofs.Session.Columns
import TraceViewer.Proofs.Session.Newest
import TraceViewer.Proofs.Session.Selecting
import TraceViewer.Proofs.Session.Showing
import TraceViewer.Proofs.Snippet.Counters
import TraceViewer.Proofs.Snippet.Limits
import TraceViewer.Proofs.Snippet.RoundTrip
import TraceViewer.Proofs.Table.Arrow
import TraceViewer.Proofs.Table.Csv
import TraceViewer.Proofs.Table.Interleaving
import TraceViewer.Proofs.Table.Stability
import TraceViewer.Proofs.Json.Reading
import TraceViewer.Proofs.Parser.Filing
import TraceViewer.Proofs.Files.Writing
import TraceViewer.Proofs.Parser.Declaring
import TraceViewer.Proofs.Parser.Saving
import TraceViewer.Proofs.Parser.Distinct
import TraceViewer.Proofs.Session.Starting
import TraceViewer.Proofs.Session.Agreement
import TraceViewer.Proofs.Trace.Grouping
import TraceViewer.Proofs.Snippet.Offsets
import TraceViewer.Proofs.Snippet.Scoping
import TraceViewer.Proofs.Snippet.Precedence
import TraceViewer.Proofs.Snippet.Pushing
import TraceViewer.Proofs.Snippet.Chaining
import TraceViewer.Proofs.Table.Finding
import TraceViewer.Proofs.Snippet.Missing
import TraceViewer.Proofs.Trace.Presence
import TraceViewer.Proofs.Parser.Compiling
import TraceViewer.Proofs.Parser.Keys
import TraceViewer.Proofs.Trace.Projection
import TraceViewer.Proofs.Session.Deleting
import TraceViewer.Proofs.Snippet.Declarations
import TraceViewer.Proofs.Session.Naming
import TraceViewer.Proofs.Trace.Summing
import TraceViewer.Proofs.Snippet.Documents
import TraceViewer.Proofs.Table.Caching
import TraceViewer.Proofs.Session.Prompting
import TraceViewer.Proofs.Snippet.Coercion
import TraceViewer.Proofs.Snippet.Counting
import TraceViewer.Proofs.Session.Scrolling
import TraceViewer.Proofs.Screen.Alignment
import TraceViewer.Proofs.Snippet.Identifiers
import TraceViewer.Proofs.Snippet.Literals
import TraceViewer.Proofs.Snippet.Compound
import TraceViewer.Proofs.Snippet.Cutting
import TraceViewer.Proofs.Snippet.Replacing
import TraceViewer.Proofs.Snippet.Hoisting
import TraceViewer.Proofs.Snippet.Leading
import TraceViewer.Proofs.Snippet.Spacing
import TraceViewer.Proofs.Snippet.Tiling
import TraceViewer.Proofs.Snippet.Bookkeeping
