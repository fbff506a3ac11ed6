import LocalHand.Lib.Run
import LocalHand.Lib.PrefixRange
import LocalHand.Lib.JsonRoundTrip
import LocalHand.Lib.Framing
import LocalHand.Lib.PyData
import LocalHand.Lib.Program
import LocalHand.Ceilings
import LocalHand.Maintenance
import LocalHand.MaintenanceBarrier
import LocalHand.Resources
import LocalHand.BootstrapRoots
import LocalHand.RootSlots
import LocalHand.ResultReader
import LocalHand.ResultTransport
import LocalHand.RequestIdentity
import LocalHand.MaintenanceReadback
import LocalHand.Observer.StartsOnce
import LocalHand.EvidenceResume
import LocalHand.Broker.Snapshots
import LocalHand.Deploy.Runs
import LocalHand.ManagerLockstep
import LocalHand.BridgeLossless
import LocalHand.Mailbox.AtMostOnce
import LocalHand.Mailbox.Isolation
import LocalHand.Planner
import LocalHand.ArchiveDirectory
import LocalHand.SupervisionRuns
import LocalHand.TaskSessionRuns
import LocalHand.QuotaServiceRuns
import LocalHand.StartupRuns
import LocalHand.GatewayRuns
import LocalHand.FixedLauncher
import LocalHand.QuotaReceiptGrammar
import LocalHand.Mailbox.ReceiptRoom
import LocalHand.StateStore
import LocalHand.CatalogPages
import LocalHand.Deploy.FileSequence
import LocalHand.GatewayCalls
import LocalHand.CasWrite
import LocalHand.CasTruth
import LocalHand.RootRebinding
import LocalHand.ExecutionCovers
import LocalHand.QuotaExits
