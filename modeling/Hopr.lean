import Hopr.TicketManager.Memory
import Hopr.TicketManager.Accounting
import Hopr.TicketManager.ConcurrentSave
import Hopr.TicketManager.OutgoingSave
import Hopr.TicketManager.Restart
import Hopr.TicketManager.UnrealizedValue
import Hopr.TicketManager.Interchange
import Hopr.Transport.Stranded
import Hopr.Connector.NonceOrder
import Hopr.TicketManager.FailedCalls
import Hopr.TicketManager.LockOrder
import Hopr.TicketManager.MapLocks
import Hopr.Graph.Attribution
import Hopr.Connector.LatestAttempt
import Hopr.Connector.ChannelStory
import Hopr.Connector.StateSync
import Hopr.Connector.KeyCoherence
import Hopr.SessionServerForwarder.Admission
import Hopr.SessionServerForwarder.AllowList
import Hopr.TicketManager.RedeemStream
import Hopr.TicketManager.Insertion
import Hopr.Library.Front
import Hopr.TicketManager.Neglection
import Hopr.TicketManager.SyncPartition
import Hopr.TicketManager.Stores
import Hopr.TicketManager.CacheFaults
import Hopr.Graph.PathQueries
import Hopr.Graph.Resolution
import Hopr.Graph.Weight
import Hopr.Graph.Scores
import Hopr.Graph.Tomography
import Hopr.Connector.NonceGap
import Hopr.Connector.Services
import Hopr.Connector.TicketValues
import Hopr.SessionServerForwarder.MappedAddress
import Hopr.Graph.Judgements
import Hopr.Graph.Reachable
import Hopr.Transport.Announcements
import Hopr.Transport.Liveness
import Hopr.SessionServerForwarder.LoopbackService
import Hopr.SessionServerForwarder.Validation
import Hopr.CoverTraffic.Probes
import Hopr.Connector.RegistryFollower
import Hopr.Connector.RedemptionSettled
