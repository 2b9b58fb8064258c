import P2PRadio.P2p.Swarm
import P2PRadio.Support.Channels
import P2PRadio.Support.Transition

/-!
# From the encoder to the listener's decoder

The way of audio and titles through both nodes: the buffers queued on `sink_rx` and the title
tags in the watch cell, the message loop of `EncodingBackend::process_url`, the publishing loop
of `StreamerSwarmService::run`, gossipsub, the event loop of `ListenerSwarmService::run`, and
`GossipBackendBridge::run`.  Between two of them stands a bounded queue.

A step is what one task does between two points where it can be suspended.  A task whose send
finds the queue full keeps its message (`sending`) and takes no other step; the message loop may
also be suspended between `changed()` and `borrow_and_update()`.  Gossipsub is a queue of
payloads: each is delivered once, in publish order, with the streamer as propagation source and
with a sequence number.

`produced`, `titlesSet`, `delivered` and `decoded` record the past; no step reads them.
-/

namespace P2PRadio

open Channels Transition

/-- Where the message loop of the encoding backend is suspended. -/
inductive MsgLoop where
  | selecting
  /-- `changed()` has returned, `borrow_and_update()` has not run. -/
  | titleChanged
  | sending (msg : Message)
  deriving DecidableEq, Repr

/-- What gossipsub delivers carries a sequence number. -/
abbrev NumberedMessage := { m : Gossipsub.Message // m.sequenceNumber.isSome }

structure Pipeline where
  sinkRx : Fifo Bytes
  titleCh : Watch (Option String) := { value := none }
  /-- The version `title_rx` has seen. -/
  titleRx : ℕ := 0
  msgLoop : MsgLoop := .selecting
  gossipPub : Fifo Message
  network : List NumberedMessage := []
  gossipsub : Gossipsub.Behaviour := {}
  /-- What the listener's event loop is sending on `gossip_sub_tx`. -/
  swarmSending : Option Message := none
  gossipSub : Fifo Message
  /-- What the bridge is sending on `app_src_tx`. -/
  bridgeSending : Option Bytes := none
  audio : Fifo Bytes
  /-- The title listeners are shown. -/
  title : String := ""
  /-- The buffers queued on `sink_rx` so far. -/
  produced : List Bytes := []
  /-- The titles written to the watch cell so far. -/
  titlesSet : List String := []
  /-- What the bridge has finished with: packets on `app_src_tx`, titles written. -/
  delivered : List Message := []
  /-- What the decoder has taken from `app_src_rx` so far. -/
  decoded : List Bytes := []

inductive PipelineAction where
  /-- The appsink callback queues a buffer. -/
  | queueBuffer (buf : Bytes)
  /-- `process_message` sees a title tag. -/
  | setTitle (title : String)
  /-- The message loop takes its audio branch, or its title branch. -/
  | recvBuffer
  | titleChanged
  | borrowTitle
  | sendPub
  /-- The streamer's swarm publishes; gossipsub numbers the message. -/
  | publish (seqNo : UInt64)
  | processEvent
  | sendSub
  | bridgeRecv
  | bridgeSend
  /-- The decoder takes a packet. -/
  | decode
  deriving DecidableEq, Repr

/-- The gossipsub message of a payload. -/
def published (streamer : PeerId) (msg : Message) (seqNo : UInt64) : NumberedMessage :=
  ⟨{ source := some streamer, data := msg.encode, sequenceNumber := some seqNo }, rfl⟩

def Pipeline.step (streamer : PeerId) (s : Pipeline) : PipelineAction → Option Pipeline
  | .queueBuffer buf => do
    let sinkRx ← s.sinkRx.send buf
    return { s with sinkRx, produced := s.produced ++ [buf] }
  | .setTitle title =>
    some { s with titleCh := s.titleCh.send (some title), titlesSet := s.titlesSet ++ [title] }
  | .recvBuffer =>
    match s.msgLoop with
    | .selecting => do
      let (buf, sinkRx) ← s.sinkRx.recv
      return { s with sinkRx, msgLoop := .sending (.audioPacket buf) }
    | _ => none
  | .titleChanged =>
    match s.msgLoop with
    | .selecting =>
      if s.titleRx = s.titleCh.version then none
      else some { s with titleRx := s.titleCh.version, msgLoop := .titleChanged }
    | _ => none
  | .borrowTitle =>
    match s.msgLoop with
    | .titleChanged =>
      some { s with
        titleRx := s.titleCh.version
        msgLoop := match s.titleCh.value with
          | some title => .sending (.metadata { title })
          | none => .selecting }
    | _ => none
  | .sendPub =>
    match s.msgLoop with
    | .sending msg => do
      let gossipPub ← s.gossipPub.send msg
      return { s with gossipPub, msgLoop := .selecting }
    | _ => none
  | .publish seqNo => do
    let (msg, gossipPub) ← s.gossipPub.recv
    return { s with gossipPub, network := s.network ++ [published streamer msg seqNo] }
  | .processEvent =>
    match s.swarmSending, s.network with
    | none, m :: network =>
      let processed :=
        processGossipSubEvent s.gossipsub (.message streamer (messageId m.val) m.val) streamer
      some { s with network, gossipsub := processed.1, swarmSending := processed.2 }
    | _, _ => none
  | .sendSub =>
    match s.swarmSending with
    | some msg => do
      let gossipSub ← s.gossipSub.send msg
      return { s with gossipSub, swarmSending := none }
    | none => none
  | .bridgeRecv =>
    match s.bridgeSending with
    | none => do
      let (msg, gossipSub) ← s.gossipSub.recv
      match msg with
      | .audioPacket bytes => return { s with gossipSub, bridgeSending := some bytes }
      | .metadata { title } =>
        return { s with
          gossipSub, title, delivered := s.delivered ++ [.metadata { title }] }
    | some _ => none
  | .bridgeSend =>
    match s.bridgeSending with
    | some bytes => do
      let audio ← s.audio.send bytes
      return { s with
        audio, bridgeSending := none, delivered := s.delivered ++ [.audioPacket bytes] }
    | none => none
  | .decode => do
    let (bytes, audio) ← s.audio.recv
    return { s with audio, decoded := s.decoded ++ [bytes] }

/-- The capacities of the four queues. -/
structure Capacities where
  sink : ℕ+
  gossipPub : ℕ+
  gossipSub : ℕ+
  audio : ℕ+

def pipeline (streamer : PeerId) (c : Capacities) : System Pipeline PipelineAction where
  init :=
    { sinkRx := .empty c.sink, gossipPub := .empty c.gossipPub,
      gossipSub := .empty c.gossipSub, audio := .empty c.audio }
  step := Pipeline.step streamer

/-! ## What is in flight -/

/-- The packets among messages, and the titles. -/
def packetsOf (msgs : List Message) : List Bytes :=
  msgs.filterMap fun | .audioPacket bytes => some bytes | .metadata _ => none

def titlesOf (msgs : List Message) : List String :=
  msgs.filterMap fun | .audioPacket _ => none | .metadata m => some m.title

/-- The message a payload carries. -/
def payload (m : NumberedMessage) : Option Message := contentOf m.val

def MsgLoop.pending : MsgLoop → List Message
  | .sending msg => [msg]
  | _ => []

/-- Everything between the message loop's `select!` and the end of the bridge, stage by stage,
from the oldest to the newest. -/
def Pipeline.inFlight (s : Pipeline) : List Message :=
  (s.bridgeSending.map .audioPacket).toList ++ s.gossipSub.items ++ s.swarmSending.toList ++
    s.network.filterMap payload ++ s.gossipPub.items ++ s.msgLoop.pending

@[simp] lemma packetsOf_append (xs ys : List Message) :
    packetsOf (xs ++ ys) = packetsOf xs ++ packetsOf ys := List.filterMap_append

@[simp] lemma titlesOf_append (xs ys : List Message) :
    titlesOf (xs ++ ys) = titlesOf xs ++ titlesOf ys := List.filterMap_append

lemma payload_published (streamer : PeerId) (msg : Message) (seqNo : UInt64) :
    payload (published streamer msg seqNo) = some msg :=
  contentOf_eq_some_iff.mpr (Message.decode_encode msg)

/-- The listener's event loop hands on what the payload carries. -/
lemma processGossipSubEvent_payload (b : Gossipsub.Behaviour) (m : NumberedMessage)
    (streamer : PeerId) :
    (processGossipSubEvent b (.message streamer (messageId m.val) m.val) streamer).2 =
      payload m :=
  processGossipSubEvent_eq_contentOf b (messageId m.val) streamer m.property

end P2PRadio
