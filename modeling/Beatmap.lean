import Beatmap.Main
import Beatmap.Json.Parser
import Beatmap.Proofs.Lines
import Beatmap.Proofs.Run
import Beatmap.Proofs.Content
import Beatmap.Proofs.Records
import Beatmap.Proofs.Settings
import Beatmap.Proofs.Pieces
import Beatmap.Proofs.Version
import Beatmap.Proofs.Fields
import Beatmap.Proofs.Faults
import Beatmap.Proofs.Diagnostics
import Beatmap.Proofs.Extraction
import Beatmap.Proofs.Outcome
import Beatmap.Proofs.Blank
import Beatmap.Proofs.Validity
import Beatmap.Proofs.Accounting
import Beatmap.Proofs.Blocks
import Beatmap.Proofs.Layout
import Beatmap.Proofs.Sources
import Beatmap.Proofs.Directories
import Beatmap.Proofs.Placement
import Beatmap.Proofs.Containment
import Beatmap.Proofs.Literals
import Beatmap.Proofs.Written
import Beatmap.Proofs.Stored
import Beatmap.Proofs.RoundTrip
import Beatmap.Proofs.Survival
import Beatmap.Proofs.Metrics
import Beatmap.Proofs.Columns
import Beatmap.Proofs.ObjectLines
import Beatmap.Proofs.PointLines
import Beatmap.Proofs.Writing
import Beatmap.Proofs.Reports
import Beatmap.Proofs.WholeRun
import Beatmap.Proofs.LetterCase
import Beatmap.Proofs.Extensions
import Beatmap.Proofs.Lookup
import Beatmap.Proofs.Multiplicity
import Beatmap.Proofs.AudioFiles
import Beatmap.Proofs.StorageKeys
import Beatmap.Proofs.ByteLines
import Beatmap.Proofs.Growth
import Beatmap.Proofs.Naming
import Beatmap.Proofs.Rounding
import Beatmap.Proofs.Offsets
import Beatmap.Proofs.Scanning
import Beatmap.Proofs.Places
