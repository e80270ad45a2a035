import WalletPage.Binder.Basic
import WalletPage.Binder.Cycle
import WalletPage.Browser.Access
import WalletPage.Browser.Basic
import WalletPage.Browser.Client
import WalletPage.Browser.Clock
import WalletPage.Browser.Elements
import WalletPage.Browser.Seed
import WalletPage.Browser.Storage
import WalletPage.Browser.Upload
import WalletPage.Browser.Views
import WalletPage.Browser.Window
import WalletPage.Cache.Notes
import WalletPage.Cache.Snapshots
import WalletPage.Decimal.Layout
import WalletPage.Decimal.Scaled
import WalletPage.Decimal.Shortest
import WalletPage.Host.Basic
import WalletPage.Json.Basic
import WalletPage.Json.Decode
import WalletPage.Json.DecodeError
import WalletPage.Json.Document
import WalletPage.Json.Draft
import WalletPage.Json.Printer
import WalletPage.Json.Reader
import WalletPage.Log.Entry
import WalletPage.Log.Level
import WalletPage.Markup.Basic
import WalletPage.Markup.Html
import WalletPage.Page.Basic
import WalletPage.Poll.Config
import WalletPage.Poll.Policy
import WalletPage.Problem
import WalletPage.Proofs.AnyHost
import WalletPage.Proofs.BinderRuns
import WalletPage.Proofs.CacheKeys
import WalletPage.Proofs.CacheLag
import WalletPage.Proofs.CacheMap
import WalletPage.Proofs.CancelSafety
import WalletPage.Proofs.CycleEffects
import WalletPage.Proofs.HistoryCalls
import WalletPage.Proofs.LatestChanges
import WalletPage.Proofs.Locking
import WalletPage.Proofs.Mirrors
import WalletPage.Proofs.NotesApart
import WalletPage.Proofs.Occurrences
import WalletPage.Proofs.OrderlyRuns
import WalletPage.Proofs.OrderlyTurns
import WalletPage.Proofs.PageEffects
import WalletPage.Proofs.Paintings
import WalletPage.Proofs.PrintedJson
import WalletPage.Proofs.Remounting
import WalletPage.Proofs.RenderOnChange
import WalletPage.Proofs.SelectedPages
import WalletPage.Proofs.ServiceRuns
import WalletPage.Proofs.Stalling
import WalletPage.Proofs.StoppedTasks
import WalletPage.Proofs.StoredSnapshot
import WalletPage.Proofs.TaskLaws
import WalletPage.Proofs.Turns
import WalletPage.Proofs.Unwatched
import WalletPage.Proofs.Watched
import WalletPage.Render.Basic
import WalletPage.Render.Notice
import WalletPage.Render.Update
import WalletPage.Render.UploadStatus
import WalletPage.Run.Basic
import WalletPage.Run.Cycle
import WalletPage.Run.Service
import WalletPage.Run.Shutdown
import WalletPage.Run.Turn
import WalletPage.Session
import WalletPage.Snapshot.Basic
import WalletPage.Snapshot.Payload
import WalletPage.Snapshot.Records
import WalletPage.Snapshot.Stored
import WalletPage.Store.Basic
import WalletPage.Store.KeyValue
import WalletPage.Store.Keyed
import WalletPage.Task.Executor
import WalletPage.Task.Gates
import WalletPage.Task.Lock
import WalletPage.Task.Registry
import WalletPage.Text.Blank
import WalletPage.Text.Marker
import WalletPage.Text.Quoted
import WalletPage.Text.Unmarked
import WalletPage.View.Basic
import WalletPage.View.CacheKey
import WalletPage.Proofs.ShutdownSafety
import WalletPage.Proofs.PageFrames
import WalletPage.Proofs.SessionIsolation
import WalletPage.Proofs.RegistryRuns
import WalletPage.Proofs.ServiceRosters
import WalletPage.Proofs.Conclusions
import WalletPage.Proofs.PollHistory
import WalletPage.Proofs.PolledRuns
import WalletPage.Proofs.PollMarks
import WalletPage.Proofs.TransitionLatch
import WalletPage.Proofs.SoloTask
import WalletPage.Proofs.PollDiscipline
import WalletPage.Proofs.NormalMarkup
import WalletPage.Proofs.Reloading
import WalletPage.Proofs.OwnEntry
import WalletPage.Proofs.Interleavings
import WalletPage.Proofs.CacheFirst
import WalletPage.Proofs.Chapters
import WalletPage.Proofs.PayloadGrammar
import WalletPage.Proofs.Skeletons
import WalletPage.Proofs.NotesShown
import WalletPage.Proofs.PaintedTables
import WalletPage.Proofs.Waiters
import WalletPage.Proofs.WakeUps
import WalletPage.Proofs.Refetching
import WalletPage.Proofs.KeyCodec
import WalletPage.Proofs.Sweeping
import WalletPage.Proofs.TimerRange
import WalletPage.Proofs.Spellings
import WalletPage.Proofs.PageChoices
import WalletPage.Proofs.WindowStores
import WalletPage.Proofs.SafeSessions
import WalletPage.Proofs.LevelNames
