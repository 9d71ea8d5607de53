import Vamp.ProcessOutcome
import Vamp.RoomNoninterference
import Vamp.DeliveryIsolation
import Vamp.AckProvenance
import Vamp.ReliableDelivery
import Vamp.CandidateOrder
import Vamp.StaleAnswers
import Vamp.LocalCandidates
import Vamp.BrowserRecovery
import Vamp.TrackSearch
import Vamp.FilteredTracks
import Vamp.ListeningLedger
import Vamp.TrackArchive
import Vamp.AppWsHandler
import Vamp.LegacyPort
import Vamp.ListeningCredit
import Vamp.WsNode
import Vamp.HandlerControl
import Vamp.Deliveries
import Vamp.WakeUps
import Vamp.SignallingOrder
import Vamp.MessageLimits
import Vamp.RequestHandover
import Vamp.WsSignallingConnector
import Vamp.UrgentFailures
import Vamp.IceRestartDebouncer
import Vamp.SendRetries
import Vamp.DroppedFilters
import Vamp.CriteriaSets
import Vamp.SqlLike
import Vamp.TextSearch
import Vamp.AddTracks
import Vamp.TagUnion
import Vamp.SourceSwap
import Vamp.ErrorRecords
import Vamp.Blocks
import Vamp.ListenTracker
import Vamp.Pipeline
import Vamp.LibraryPaging
import Vamp.IdleChecker
import Vamp.SearchStatement
import Vamp.TracksWithSources
import Vamp.JsArray
import Vamp.PlayerStore
import Vamp.PlaylistsTab
import Vamp.FixedPattern
import Vamp.SourceRouting
import Vamp.Integrity
import Vamp.RemoteSystem
import Vamp.CommandCalls
import Vamp.ListeningTime
import Vamp.LibraryRefresh
import Vamp.ConnectionCleanup
import Vamp.TrackRecords
import Vamp.ServerAccounts
import Vamp.SearchAgreement
import Vamp.SignallingSystem
