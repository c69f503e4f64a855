import QueryTables.Json.Reader
import QueryTables.Main
import QueryTables.WordScan
import QueryTables.Proofs.Recognition
import QueryTables.Proofs.Letters
import QueryTables.Proofs.Steps
import QueryTables.Proofs.Sightings
import QueryTables.Proofs.Concatenation
import QueryTables.Proofs.Coverage
import QueryTables.Proofs.Events
import QueryTables.Proofs.Groups
import QueryTables.Proofs.Merging
import QueryTables.Proofs.Tables
import QueryTables.Proofs.RoundTrip
import QueryTables.Proofs.Segments
import QueryTables.Proofs.Splitting
import QueryTables.Proofs.Unquoting
import QueryTables.Proofs.WordScan
import QueryTables.Proofs.Reports
import QueryTables.Proofs.Json
import QueryTables.Proofs.Arguments
import QueryTables.Proofs.QuerySources
import QueryTables.Proofs.Blanks
import QueryTables.Proofs.Failures
import QueryTables.Proofs.Grammar
import QueryTables.Proofs.QuoteMarks
import QueryTables.Proofs.LetterCase
import QueryTables.Proofs.Counters
import QueryTables.Proofs.UnquotedTables
import QueryTables.Proofs.Documents
import QueryTables.Proofs.ConfigEntries
import QueryTables.Proofs.SettingsFile
import QueryTables.Proofs.Discovery
import QueryTables.Proofs.ArgumentOrder
import QueryTables.Proofs.LogFilter
import QueryTables.Proofs.Logging
import QueryTables.Proofs.Slices
import QueryTables.Cursor
import QueryTables.Proofs.Cursor
import QueryTables.Proofs.Words
import QueryTables.Proofs.Continuation
