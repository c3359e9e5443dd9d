import Scand.Catalog.Conflicts
import Scand.Catalog.Connection
import Scand.Catalog.Database
import Scand.Catalog.LastRows
import Scand.Catalog.LinkTables
import Scand.Catalog.Normalize
import Scand.Catalog.PageLimit
import Scand.Catalog.Paging
import Scand.Catalog.Pull
import Scand.Catalog.Replacement
import Scand.Catalog.SecondPass
import Scand.Catalog.Truncation
import Scand.Foundation.Accumulate
import Scand.Foundation.CutPieces
import Scand.Foundation.EventStream
import Scand.Foundation.Interleaving
import Scand.Foundation.InternetAddress
import Scand.Foundation.JsonLiteral
import Scand.Foundation.JsonText
import Scand.Foundation.JsonValue
import Scand.Foundation.KeyedTable
import Scand.Foundation.Outcomes
import Scand.Foundation.Overlay
import Scand.Foundation.PercentCoding
import Scand.Foundation.PlaceValue
import Scand.Foundation.RequestPath
import Scand.Foundation.Restarts
import Scand.Foundation.RowLog
import Scand.Foundation.RowUpdate
import Scand.Foundation.TextCuts
import Scand.Foundation.Tickets
import Scand.Foundation.Transaction
import Scand.Foundation.Waiting
import Scand.Foundation.WorkQueue
import Scand.Hooks.ClientList
import Scand.Hooks.Connections
import Scand.Hooks.DueBroadcasts
import Scand.Hooks.OnceBroadcast
import Scand.Hooks.Requests
import Scand.Http.Router
import Scand.Inventory.AllowedWarehouses
import Scand.Inventory.CanonicalForm
import Scand.Inventory.CostRows
import Scand.Inventory.CostValues
import Scand.Inventory.Database
import Scand.Inventory.Endpoints
import Scand.Inventory.ImportSnapshot
import Scand.Inventory.NextImport
import Scand.Inventory.Preview
import Scand.Inventory.PreviewRows
import Scand.Inventory.PullOrder
import Scand.Inventory.PullToSnapshot
import Scand.Inventory.Reimport
import Scand.Inventory.Snapshot
import Scand.Inventory.StockRows
import Scand.Inventory.StoredPrices
import Scand.Inventory.WarehouseRoutes
import Scand.InventoryPull.Commits
import Scand.InventoryPull.Events
import Scand.InventoryPull.Jobs
import Scand.InventoryPull.Percent
import Scand.InventoryPull.Protocol
import Scand.InventoryPull.SaveErrors
import Scand.InventoryPull.Selection
import Scand.InventoryPull.Silence
import Scand.InventoryPull.SingleJob
import Scand.InventoryPull.StatusEndpoint
import Scand.InventoryPull.StoredSnapshots
import Scand.Ka2.Balance
import Scand.Ka2.BalancePath
import Scand.Ka2.FlatRows
import Scand.Ka2.PlainReader
import Scand.Ka2.Pull
import Scand.Ka2.Reader
import Scand.Ka2.UrlLimit
import Scand.Onec.AcceptedUrls
import Scand.Onec.AddressClasses
import Scand.Onec.CatalogPages
import Scand.Onec.ConnectionTest
import Scand.Onec.HostAgreement
import Scand.Onec.InternalHosts
import Scand.Onec.ODataSuffix
import Scand.Onec.Preflight
import Scand.Onec.RawWindows
import Scand.Onec.Strings
import Scand.Onec.UrlNormalizer
import Scand.Ozon.AutoResume
import Scand.Ozon.Client
import Scand.Ozon.CursorSafety
import Scand.Ozon.Cursors
import Scand.Ozon.Exclusion
import Scand.Ozon.Interruptions
import Scand.Ozon.JobRows
import Scand.Ozon.Mirror
import Scand.Ozon.Pages
import Scand.Ozon.Prices
import Scand.Ozon.ProductRows
import Scand.Ozon.Progress
import Scand.Ozon.RefusedFull
import Scand.Ozon.ResumePoints
import Scand.Ozon.Service
import Scand.Ozon.Startup
import Scand.Ozon.StopFlag
import Scand.Ozon.WholeListing
import Scand.Sse.Broker
import Scand.Sse.ClientView
import Scand.Sse.Resume
import Scand.Sse.StreamOrder
import Scand.Sse.Streams
import Scand.Sse.Window
import Scand.Sse.WriteBuffer
import Scand.Store.Checkpoints
import Scand.Store.ConnectionPool
import Scand.Store.PoolWakeups
import Scand.Store.RunHistory
import Scand.Store.SyncRuns
import Scand.Store.Unfinished
import Scand.Tasks.Wakeups
import Scand.Tasks.WorkerPool
