import LodelineManager.Foundation.Runs
import LodelineManager.Foundation.SingleConnection
import LodelineManager.Foundation.KeyedTable
import LodelineManager.Foundation.Decimal
import LodelineManager.Foundation.Calendar
import LodelineManager.Go.Time
import LodelineManager.Triage.Types
import LodelineManager.Triage.Schema
import LodelineManager.Triage.Repo
import LodelineManager.Triage.Exec
import LodelineManager.Triage.AuditTrail
import LodelineManager.Triage.SerialOrder
import LodelineManager.Foundation.Keyset
import LodelineManager.Triage.Paging
import LodelineManager.Triage.Walk
import LodelineManager.Fleet.Errors
import LodelineManager.Fleet.Retry
import LodelineManager.Fleet.HTTP
import LodelineManager.Fleet.Cache
import LodelineManager.Fleet.CacheSteps
import LodelineManager.Fleet.CacheReads
import LodelineManager.Fleet.ReadContract
import LodelineManager.Api.RateLimit
import LodelineManager.Fleet.CacheMonotone
import LodelineManager.Fleet.Timeouts
import LodelineManager.Api.LoginLimit
import LodelineManager.Auth.OIDC
import LodelineManager.Auth.LoginRuns
import LodelineManager.Foundation.FirstMatch
import LodelineManager.Web.Events
import LodelineManager.Web.SlideOver
import LodelineManager.Web.Alerts
import LodelineManager.Api.Triage
import LodelineManager.Web.Notes
import LodelineManager.Foundation.PercentCoding
import LodelineManager.Go.URL
import LodelineManager.Fleet.Requests
import LodelineManager.Fleet.CacheOrigins
import LodelineManager.Fleet.CacheKeys
import LodelineManager.Fleet.CacheLoad
import LodelineManager.Auth.Session
import LodelineManager.Api.FleetErrors
import LodelineManager.Foundation.ConnectionReader
import LodelineManager.Triage.ClockedWrites
import LodelineManager.Api.TriageGet
import LodelineManager.Web.Drafts
import LodelineManager.Fleet.Mock
import LodelineManager.Web.PagedFleet
import LodelineManager.Go.Router
import LodelineManager.Go.RequestURI
import LodelineManager.Web.RequestPath
import LodelineManager.Api.PathIDs
import LodelineManager.Api.EventsQuery
import LodelineManager.Foundation.JsonTree
import LodelineManager.Foundation.Utf16
import LodelineManager.Go.JSON
import LodelineManager.Go.JSONTypes
import LodelineManager.Go.ZonedTime
import LodelineManager.Fleet.CacheRecency
import LodelineManager.Triage.PartialUpdate
import LodelineManager.Triage.Cursors
import LodelineManager.Foundation.StampOrder
import LodelineManager.Triage.CommitOrder
import LodelineManager.Api.UpsertBody
import LodelineManager.Auth.TokenChecks
import LodelineManager.Api.LimiterRuns
import LodelineManager.Fleet.Wire
import LodelineManager.Fleet.WireValues
import LodelineManager.Api.FleetBodies
import LodelineManager.Api.LimiterIsolation
import LodelineManager.Fleet.Backoff
import LodelineManager.Foundation.DecimalFraction
import LodelineManager.Foundation.StableSort
import LodelineManager.Go.TimeOrder
import LodelineManager.Web.SortOrder
import LodelineManager.Web.ComplianceLookup
import LodelineManager.Foundation.KeyCursor
import LodelineManager.Web.CursorKeys
import LodelineManager.Web.HoverPause
import LodelineManager.Web.NoteForm
import LodelineManager.Go.Ascii
import LodelineManager.Triage.Stamps
import LodelineManager.Env.Factory
import LodelineManager.Fleet.MockHosts
import LodelineManager.Foundation.FollowCursors
import LodelineManager.Fleet.MockEvents
import LodelineManager.Fleet.MockWalks
import LodelineManager.Foundation.ShortestDigits
import LodelineManager.Web.BuildQuery
import LodelineManager.Go.JSONPaths
import LodelineManager.Fleet.MetaWire
import LodelineManager.Api.MetaRelay
import LodelineManager.Foundation.UrlReference
import LodelineManager.Web.LoginRedirect
import LodelineManager.Api.Acknowledged
import LodelineManager.Api.Admission
import LodelineManager.Api.EventsJoin
import LodelineManager.Api.Rereads
import LodelineManager.Api.OIDCStart
import LodelineManager.Fleet.CacheAnswers
import LodelineManager.Web.ApiClient
import LodelineManager.Web.Diagnosis
import LodelineManager.Api.ListQueries
import LodelineManager.Fleet.PageWire
import LodelineManager.Web.RelayedPages
import LodelineManager.Web.FleetListings
import LodelineManager.Web.Shortcuts
import LodelineManager.Foundation.TextReaders
import LodelineManager.Go.Quote
import LodelineManager.Server.AccessLog
import LodelineManager.Api.EventsRelay
import LodelineManager.Web.EventListings
import LodelineManager.Web.Dates
import LodelineManager.Web.FilterRow
