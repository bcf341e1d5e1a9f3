import MultidropBus.Bench
import MultidropBus.Node.Executor
import MultidropBus.Proofs.Frame.RoundTrip
import MultidropBus.Proofs.Link
import MultidropBus.Proofs.Receive.FallingBehind
import MultidropBus.Proofs.Transmit.Session
import MultidropBus.Proofs.Receive.History
import MultidropBus.Proofs.Receive.Chronicle
import MultidropBus.Proofs.Receive.Recovery
import MultidropBus.Proofs.Receive.Provenance
import MultidropBus.Proofs.Transmit.Dispatch
import MultidropBus.Proofs.Node.Arrivals
import MultidropBus.Proofs.Node.Reception
import MultidropBus.Proofs.Node.Mirroring
import MultidropBus.Proofs.Node.Wakeups
import MultidropBus.Proofs.Node.Transmission
import MultidropBus.Proofs.Node.LineRelease
import MultidropBus.Proofs.Receive.Copies
import MultidropBus.Proofs.Node.Conversation
import MultidropBus.Proofs.Receive.Queue
import MultidropBus.Proofs.Identity.Storage
import MultidropBus.Proofs.Transmit.Restart
import MultidropBus.Proofs.Receive.Restart
import MultidropBus.Proofs.Receive.Ledger
import MultidropBus.Proofs.Receive.ForeignTraffic
import MultidropBus.Proofs.Receive.Resting
import MultidropBus.Proofs.Peers
import MultidropBus.Proofs.Receive.Settling
import MultidropBus.Proofs.Receive.Filtering
import MultidropBus.Proofs.Identity.Torn
import MultidropBus.Proofs.Transmit.Offers
import MultidropBus.Proofs.Transmit.Polling
import MultidropBus.Proofs.Frame.Damage
import MultidropBus.Proofs.Receive.Damage
import MultidropBus.Proofs.Poll.Recognition
import MultidropBus.Proofs.Identity.Memberships
import MultidropBus.Proofs.Receive.Remembering
import MultidropBus.Proofs.Receive.FaultWindow
