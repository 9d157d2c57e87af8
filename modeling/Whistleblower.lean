import Whistleblower.Lib.Transition
import Whistleblower.Lib.Async
import Whistleblower.Lib.FirstWriter
import Whistleblower.Lib.Sha256
import Whistleblower.Lib.Borsh
import Whistleblower.Lib.Json.Decode
import Whistleblower.Lib.Base64
import Whistleblower.Core.Wire
import Whistleblower.Core.History
import Whistleblower.Guest.Program
import Whistleblower.Guest.Refinement
import Whistleblower.Indexing.Retry
import Whistleblower.Indexing.Orchestration
import Whistleblower.Indexing.Publisher
import Whistleblower.Indexing.Batch
import Whistleblower.Indexing.Batch.Recovery
import Whistleblower.Indexing.Batch.Distinct
import Whistleblower.Indexing.Batch.Commitment
import Whistleblower.Indexing.Ledger
import Whistleblower.Indexing.Batch.FailedIngest
import Whistleblower.Indexing.Batch.Isolation
import Whistleblower.Lez.Agreement
import Whistleblower.Lez.Submission
import Whistleblower.Ffi.Metadata
import Whistleblower.Ffi.Query
import Whistleblower.Ffi.Producers
import Whistleblower.Ffi.Canonical
import Whistleblower.Ffi.Entry
import Whistleblower.Ui.Backend
import Whistleblower.Ui.Broadcast
import Whistleblower.Ui.Upload
import Whistleblower.Ui.Timers
import Whistleblower.Ui.Display
import Whistleblower.Lez.Sequencer
import Whistleblower.Mock.Agreement
import Whistleblower.Indexing.Batch.FileReplay
import Whistleblower.Indexing.Batch.Returned
import Whistleblower.Indexing.Backoff
import Whistleblower.Indexing.Stages
import Whistleblower.Indexing.Restarts
import Whistleblower.Indexing.Export
import Whistleblower.Lez.Chained
import Whistleblower.Indexing.Batch.Tally
import Whistleblower.Tool.Deployment
import Whistleblower.Tool.Anchoring
import Whistleblower.Tool.Main
import Whistleblower.Tool.Report
import Whistleblower.Tool.Interrupt
import Whistleblower.Ui.Responsive
import Whistleblower.Ui.Signals
import Whistleblower.Ui.Toasts
import Whistleblower.Ffi.Anchor
import Whistleblower.Ffi.Bridge
import Whistleblower.Ui.Calls
import Whistleblower.Ui.Desktop
import Whistleblower.Lib.Credits
import Whistleblower.Lez.Budget
import Whistleblower.Lez.Setup
import Whistleblower.Ffi.Settings
import Whistleblower.Ui.Settings
import Whistleblower.Lib.Correlation
import Whistleblower.Mock.Clients
import Whistleblower.Mock.Completions
import Whistleblower.Mock.Subscribers
