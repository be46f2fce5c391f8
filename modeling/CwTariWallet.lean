import CwTariWallet.Interleaving
import CwTariWallet.Recording
import CwTariWallet.Pruning
import CwTariWallet.WaitGraph
import CwTariWallet.Table
import CwTariWallet.Pairing
import CwTariWallet.LongestMatch
import CwTariWallet.Regex
import CwTariWallet.CommitPoint
import CwTariWallet.Minotari
import CwTariWallet.Api.Error
import CwTariWallet.Api.Db
import CwTariWallet.Api.ScanEvents
import CwTariWallet.Api.Scanner
import CwTariWallet.Api.LogLevels
import CwTariWallet.Api.MaxLevel
import CwTariWallet.Api.LogFilters
import CwTariWallet.Api.LogWriter
import CwTariWallet.Api.PanicHook
import CwTariWallet.Api.LogText
import CwTariWallet.Api.Amounts
import CwTariWallet.Api.Redaction
import CwTariWallet.Api.LogFields
import CwTariWallet.Domain.Text
import CwTariWallet.Domain.Validation
import CwTariWallet.Domain.SendGate
import CwTariWallet.Api.WalletCreation
import CwTariWallet.Scripts.ApiStability
import CwTariWallet.Scripts.Declarations
import CwTariWallet.Scripts.DartTypes
import CwTariWallet.Scripts.GeneratedDart
import CwTariWallet.Scripts.ContractLines
import CwTariWallet.Scripts.Tripwire
import CwTariWallet.Bridge.Shared
import CwTariWallet.Bridge.Accounts
import CwTariWallet.Bridge.Locks
import CwTariWallet.Bridge.Unlock
import CwTariWallet.Bridge.Maintenance
import CwTariWallet.Bridge.Scan
import CwTariWallet.Bridge.Send
import CwTariWallet.Bridge.System
import CwTariWallet.Protocol.Keys
import CwTariWallet.Protocol.Slot
import CwTariWallet.Protocol.Tickets
import CwTariWallet.Bridge.Effects
import CwTariWallet.Bridge.FileSteps
import CwTariWallet.Bridge.KeyRefinement
import CwTariWallet.Bridge.KeySteps
import CwTariWallet.Bridge.DbSteps
import CwTariWallet.Bridge.Counts
import CwTariWallet.Bridge.Sessions
import CwTariWallet.Bridge.Holders
import CwTariWallet.Bridge.Ledger
import CwTariWallet.Bridge.ScanSteps
import CwTariWallet.Bridge.SlotRefinement
import CwTariWallet.Bridge.Writers
import CwTariWallet.Bridge.LockedScans
import CwTariWallet.Bridge.ScanFiles
import CwTariWallet.Bridge.TrailingStops
import CwTariWallet.Bridge.SendCourse
import CwTariWallet.Bridge.SendReleases
import CwTariWallet.Bridge.Streams
import CwTariWallet.Bridge.ScanStops
import CwTariWallet.Bridge.Handles
import CwTariWallet.Bridge.Waiting
import CwTariWallet.Bridge.StreamWaits
import CwTariWallet.Bridge.NamedAccounts
import CwTariWallet.Bridge.AbandonCourse
import CwTariWallet.Bridge.KeyReads
import CwTariWallet.Bridge.OtherFiles
import CwTariWallet.Isolation.Sessions
import CwTariWallet.Isolation.Scans
import CwTariWallet.Isolation.Files
import CwTariWallet.Isolation.Calls
import CwTariWallet.Isolation.Agreement
import CwTariWallet.Isolation.Likeness
import CwTariWallet.Isolation.Lockstep
import CwTariWallet.Isolation.LockstepScans
import CwTariWallet.Isolation.LockstepSends
import CwTariWallet.Isolation.Bystanders
import CwTariWallet.Isolation.Reached
import CwTariWallet.Isolation.Runs
import CwTariWallet.FrbGenerated.Sessions
import CwTariWallet.Bridge.WindsDown
import CwTariWallet.Bridge.AccountStore
import CwTariWallet.Api.WalletBackup
import CwTariWallet.Bridge.PoolThreads
import CwTariWallet.Bridge.ProcessNetwork
