import P2PRadio.P2p.ExplicitPeers
import P2PRadio.P2p.RelayedDelivery
import P2PRadio.P2p.Listening
import P2PRadio.Rpc.JoiningListeners
import P2PRadio.Rpc.ChunkBoundaries
import P2PRadio.Rpc.Lag
import P2PRadio.Rpc.CatchUp
import P2PRadio.Rpc.Negotiation
import P2PRadio.Relay.Conservation
import P2PRadio.Relay.Drain
import P2PRadio.Radio.Station
import P2PRadio.Radio.Airwaves
import P2PRadio.Radio.InOrder
import P2PRadio.Backend.PipelineShutdown
import P2PRadio.Backend.PadLinks
import P2PRadio.Node.Shutdown
