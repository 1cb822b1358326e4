import Pingward.RowFaultLaw
import Pingward.RowFaultPass
import Pingward.RowFault
import Pingward.FormFixpoint
import Pingward.FormSettings
import Pingward.FormValues
import Pingward.FormDuration
import Pingward.KeysetWalk
import Pingward.SecretCodec
import Pingward.ModelSecret
import Pingward.HexText
import Pingward.ProxyKey
import Pingward.ProxyTrust
import Pingward.ModelProxy
import Pingward.AddressText
import Pingward.AddressBasic
import Pingward.SessionRefine
import Pingward.SessionExpiry
import Pingward.ModelSession
import Pingward.CalendarReader
import Pingward.CalendarBasic
import Pingward.ProgramInterleave
import Pingward.ProgramSerial
import Pingward.TableBasic
import Pingward.ModelDuration
import Pingward.ModelStore
import Pingward.ModelCall
import Pingward.ModelNotify
import Pingward.ModelScheduler
import Pingward.ModelPing
import Pingward.ModelForms
import Pingward.ModelWeb
import Pingward.ModelAccount
import Pingward.ModelApi
import Pingward.ModelRoutes
import Pingward.FrameCalls
import Pingward.RowMachine
import Pingward.RowOperation
import Pingward.RowPing
import Pingward.RowPass
import Pingward.FrameAuth
import Pingward.RowRequest
import Pingward.AlertLaw
import Pingward.AlertIncident
import Pingward.AlertReminder
import Pingward.AlertDeadline
import Pingward.DeadlineBasic
import Pingward.AlertRetry
import Pingward.AlertRange
import Pingward.InterleaveChecks
import Pingward.InterleaveAdmins
import Pingward.InterleaveSessions
import Pingward.ProgramMeets
import Pingward.TenantRows
import Pingward.TenantHandlers
import Pingward.TenantIsolation
import Pingward.AuditOrder
import Pingward.AccountChanges
import Pingward.InterleaveSetup
import Pingward.SessionLifetime
import Pingward.DeadlineStored
import Pingward.WindowBasic
import Pingward.ModelLimiter
import Pingward.LimiterContract
import Pingward.LimiterRefund
import Pingward.MarkupText
import Pingward.ModelMarkdown
import Pingward.MarkdownSafety
import Pingward.InterleaveBindings
import Pingward.JsonText
import Pingward.ChannelConfig
import Pingward.PairingBasic
import Pingward.DurationGrammar
import Pingward.ModelRuns
import Pingward.RunPairing
import Pingward.SqlBasic
import Pingward.ModelKeyset
import Pingward.KeysetStatement
import Pingward.ModelBatch
import Pingward.BatchQueries
import Pingward.RunningCount
import Pingward.ModelPrune
import Pingward.PruneLaw
import Pingward.CalendarStamp
import Pingward.ModelChrono
import Pingward.ModelHistory
import Pingward.DateFilter
import Pingward.LossyText
import Pingward.ModelQuery
import Pingward.ModelLinks
import Pingward.LinkQuery
import Pingward.LinkToken
import Pingward.PagerLinks
import Pingward.MarkupEntities
import Pingward.EscapedScan
import Pingward.EscapedLine
import Pingward.EntityIntegrity
import Pingward.ModelRedact
import Pingward.RedactedUrl
import Pingward.OctetOrder
import Pingward.TimestampOrder
import Pingward.TextLines
import Pingward.ModelMessage
import Pingward.MessageShape
import Pingward.PrefixCode
import Pingward.LossyPieces
import Pingward.BodyCapture
import Pingward.ModelCookies
import Pingward.CookieHeader
import Pingward.CsrfLayers
import Pingward.CsrfTokens
import Pingward.ProgramPair
import Pingward.ModelElevation
import Pingward.ModelElevationRun
import Pingward.ElevationStores
import Pingward.ElevationHandlers
import Pingward.ElevationFront
import Pingward.ElevationInvariant
import Pingward.ElevationRefines
import Pingward.ElevationGates
import Pingward.ProgramLog
import Pingward.ProgramInStep
import Pingward.ModelDelivery
import Pingward.DeliveryLaw
import Pingward.DeliveryBlind
import Pingward.TableGrowth
import Pingward.HistoryGrowth
import Pingward.ProgramRely
import Pingward.AuthorityStore
import Pingward.AuthorityLaw
import Pingward.BroadcastBus
import Pingward.ModelLive
import Pingward.LiveTail
import Pingward.ProgramNested
import Pingward.ModelLoop
import Pingward.LoopRun
import Pingward.LoopLatency
import Pingward.TableForeign
import Pingward.StoreIntact
import Pingward.StoreErasure
