import InvoiceOps.Lib.Txn
import InvoiceOps.Lib.Inline
import InvoiceOps.Lib.ReadCommitted
import InvoiceOps.Lib.Writes
import InvoiceOps.Lib.Parallel
import InvoiceOps.Lib.Ranking
import InvoiceOps.Lib.Table
import InvoiceOps.Lib.FileTree
import InvoiceOps.Lib.Sha256
import InvoiceOps.Lib.PyDecimal
import InvoiceOps.Lib.PyDecimalFacts
import InvoiceOps.Lib.Rounding
import InvoiceOps.Lib.PyDecimalRounding
import InvoiceOps.Python
import InvoiceOps.Domain.State
import InvoiceOps.Domain.Extraction
import InvoiceOps.Domain.Matching
import InvoiceOps.Domain.Validation
import InvoiceOps.Domain.Approval
import InvoiceOps.Domain.Export
import InvoiceOps.Models
import InvoiceOps.Storage
import InvoiceOps.Exceptions
import InvoiceOps.Session
import InvoiceOps.Services.Lifecycle
import InvoiceOps.Services.Extraction
import InvoiceOps.Services.Matching
import InvoiceOps.Services.Validation
import InvoiceOps.Services.Approval
import InvoiceOps.Services.Export
import InvoiceOps.Services.Ingestion
import InvoiceOps.Workers.Tasks
import InvoiceOps.Api.ReviewUi
import InvoiceOps.Api.Decisions
import InvoiceOps.Queue
import InvoiceOps.Evals.Discrepancy
import InvoiceOps.Facts.Amounts
import InvoiceOps.Facts.Sums
import InvoiceOps.Facts.Keys
import InvoiceOps.Facts.Moves
import InvoiceOps.Facts.Stages
import InvoiceOps.Facts.Calls
import InvoiceOps.Facts.Uploads
import InvoiceOps.Facts.Serial
import InvoiceOps.Facts.Lifecycle
import InvoiceOps.Facts.Grounds
import InvoiceOps.Facts.Gate
import InvoiceOps.Facts.Exports
import InvoiceOps.Facts.Documents
import InvoiceOps.Facts.Chain
import InvoiceOps.Facts.Sends
import InvoiceOps.Facts.Interleaved
import InvoiceOps.Facts.Eager
import InvoiceOps.Facts.Drain
import InvoiceOps.Facts.Duplicates
import InvoiceOps.Facts.Overlap
import InvoiceOps.Facts.Races
import InvoiceOps.Facts.IngestStages
import InvoiceOps.Facts.Ingest
import InvoiceOps.Facts.Vendors
import InvoiceOps.Facts.Alone
import InvoiceOps.Facts.Pipeline
import InvoiceOps.Facts.Overflow
import InvoiceOps.Facts.Tolerance
import InvoiceOps.Facts.Payloads
import InvoiceOps.Facts.Discrepancy
import InvoiceOps.Facts.Retries
import InvoiceOps.Facts.Surfaces
import InvoiceOps.Facts.Review
import InvoiceOps.JsonReader
import InvoiceOps.Facts.Canonical
import InvoiceOps.Lib.PyDecimalText
import InvoiceOps.Facts.Consumer
import InvoiceOps.Evaluation.Scoring
import InvoiceOps.Facts.Scoring
import InvoiceOps.Facts.Aggregate
import InvoiceOps.Facts.Scenarios
import InvoiceOps.Facts.Provenance
import InvoiceOps.Facts.Intact
import InvoiceOps.Facts.Pointers
import InvoiceOps.Facts.Holdings
