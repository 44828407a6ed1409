import Rootmode.Lib.Transition
import Rootmode.Lib.Checked
import Rootmode.Contracts.Settlement
import Rootmode.Contracts.Replay
import Rootmode.Worker.Streaming
import Rootmode.Worker.Channels
import Rootmode.Worker.Acceptance
import Rootmode.Worker.LockHeld
import Rootmode.Worker.Coverage
import Rootmode.Core.Job
import Rootmode.Worker.Interference
import Rootmode.Worker.Prepaid
import Rootmode.Desktop.JobLock
import Rootmode.Worker.Catalogue
import Rootmode.Desktop.Lookup
import Rootmode.P2p.Framing
import Rootmode.Worker.Metering
import Rootmode.Worker.Ending
import Rootmode.Worker.Invoices
import Rootmode.Lib.Notify
import Rootmode.Worker.Stopping
import Rootmode.Lib.Owners
import Rootmode.Worker.Registries
import Rootmode.Desktop.Attempt
import Rootmode.Worker.Deferral
import Rootmode.Contracts.Caps
import Rootmode.Contracts.Consent
import Rootmode.Contracts.Exit
import Rootmode.Contracts.AppKeys
import Rootmode.Contracts.Payouts
import Rootmode.Contracts.ChannelRuns
import Rootmode.Worker.TypedData
import Rootmode.Worker.Authorize
import Rootmode.Worker.Stats
import Rootmode.Desktop.Resync
import Rootmode.Worker.Ledger
import Rootmode.Worker.Spelling
import Rootmode.Worker.Usage
import Rootmode.Lib.Table
import Rootmode.Desktop.Spends
import Rootmode.Desktop.Outcome
import Rootmode.Desktop.Attribution
import Rootmode.Desktop.OpenBonds
import Rootmode.Lib.Prefixes
import Rootmode.Gateway.Peel
import Rootmode.Lib.Object
import Rootmode.Gateway.Answer
import Rootmode.Gateway.Events
import Rootmode.Gateway.Live
import Rootmode.Gateway.Heard
import Rootmode.Gateway.Streamed
import Rootmode.Lib.Blocks
import Rootmode.Gateway.Traces
import Rootmode.Gateway.WellFormed
import Rootmode.Gateway.Delivery
import Rootmode.Gateway.Requests
import Rootmode.Gateway.Dialects
import Rootmode.Gateway.Agreement
import Rootmode.Lib.Settings
import Rootmode.Lib.Pretty
import Rootmode.ConnectedTools.Jsonc
import Rootmode.ConnectedTools.Connectors
import Rootmode.ConnectedTools.Spare
import Rootmode.ConnectedTools.Undone
import Rootmode.Core.Budget
import Rootmode.Gateway.Billed
import Rootmode.Lib.Rlp
import Rootmode.Worker.Rlp
import Rootmode.Desktop.EthTx
import Rootmode.Gateway.Folding
import Rootmode.Worker.Prompt
import Rootmode.Worker.Mirror
import Rootmode.P2p.Reads
import Rootmode.Lib.Search
import Rootmode.Worker.Markup
import Rootmode.Worker.Salvage
import Rootmode.Lib.Lossy
import Rootmode.Worker.Vllm
import Rootmode.Lib.Layout
import Rootmode.Gateway.Peeled
import Rootmode.Desktop.Routing
import Rootmode.Desktop.Menu
import Rootmode.Desktop.Retries
import Rootmode.Core.Video
import Rootmode.Desktop.Clip
import Rootmode.Desktop.Flows
import Rootmode.Desktop.FlowRuns
import Rootmode.Lib.Words
import Rootmode.Worker.Screen
import Rootmode.Worker.Spacing
import Rootmode.Worker.WholeWords
import Rootmode.Worker.Screened
import Rootmode.Lib.Pointer
import Rootmode.Worker.UiFormat
import Rootmode.Worker.Aligned
import Rootmode.Worker.Conversion
import Rootmode.Lib.Places
import Rootmode.Worker.Comfy
import Rootmode.Worker.Filling
import Rootmode.Worker.Advertised
import Rootmode.Worker.Served
import Rootmode.Lib.Toml
import Rootmode.Lib.TomlDoc
import Rootmode.Lib.TomlLines
import Rootmode.ConnectedTools.Codex
import Rootmode.Contracts.FeeVault
import Rootmode.Contracts.Buybacks
import Rootmode.Worker.WideWords
import Rootmode.Desktop.WideWords
import Rootmode.Gateway.Asked
import Rootmode.Gateway.Named
import Rootmode.Lib.Written
import Rootmode.ConnectedTools.Lenient
import Rootmode.Lib.Marked
import Rootmode.ConnectedTools.ShellRc
import Rootmode.ConnectedTools.CodexCounts
import Rootmode.ConnectedTools.CodexUndone
import Rootmode.ConnectedTools.Patched
import Rootmode.Lib.Gather
import Rootmode.P2p.Node
import Rootmode.P2p.Queries
import Rootmode.P2p.Reachable
import Rootmode.P2p.Reservations
import Rootmode.P2p.Conversation
import Rootmode.Desktop.Transports
import Rootmode.Desktop.Exchange
import Rootmode.Worker.ClipBill
