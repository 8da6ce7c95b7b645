import Helics.Announcements
import Helics.Causality
import Helics.ConnectionCounts
import Helics.CoreRemoval
import Helics.DependencyBook
import Helics.DependencyOrder
import Helics.DestFilterOrder
import Helics.DisconnectRuns
import Helics.Draining
import Helics.ExecEntry
import Helics.Farewells
import Helics.FederateHandler
import Helics.ForwardingBounds
import Helics.GrantGrid
import Helics.IterationLimit
import Helics.LaunchEntry
import Helics.LocalDelivery
import Helics.MessageTimer
import Helics.NameAgreement
import Helics.PayloadCoding
import Helics.QueryAnswers
import Helics.QueueHistory
import Helics.ReadinessAnnouncements
import Helics.RequiredConnections
import Helics.SourceIndependence
import Helics.StoredPublications
import Helics.TcpReceive
import Helics.TimeBlocks
import Helics.TimingRuns
import Helics.WireSafety
