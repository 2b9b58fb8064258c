import P2PRadio.P2p.Listening
import P2PRadio.Relay.Drain

/-!
# Over the real network

`Relay/Pipeline.lean` takes gossipsub for a queue.  Here its two ends stand at the network of
`P2p/Bookkeeping.lean` instead, which loses, delays, repeats and reorders messages, carries those
of other peers and forgets the ids it has seen: the streamer's end puts messages on the air, if
gossipsub takes them, and each listener has an end of its own that passes on what its swarm hands
on.

The streamer's end is a conduit out of which comes what is aired (`Airwaves.encoder`), and a
listener's end keeps and orders what it takes (`Airwaves.taken`).  In between a listener hands on
messages as they were published, each of them once while none of its ids expires
(`Airwaves.handed_subperm`).  Together: what reaches a decoder was produced by the encoder or is
the message of another peer (`nothing_is_invented`).
-/

namespace P2PRadio

open Channels Transition

/-! ## State and steps -/

structure Airwaves where
  /-- The streamer's end, up to the queue its swarm publishes from. -/
  source : Pipeline
  /-- The messages taken from that queue. -/
  aired : List Message := []
  net : Net := {}
  /-- The listeners' ends, from what their swarm is sending on. -/
  sink : PeerId → Pipeline

inductive AirwavesAction where
  | source (a : PipelineAction)
  /-- The streamer's swarm publishes the next message. -/
  | publish (seqNo : UInt64)
  /-- It tries to, and gossipsub refuses, for want of peers or of room in their queues. -/
  | publishFails
  | net (a : NetAction)
  /-- An id expires from the cache of a node. -/
  | expire (p : PeerId) (id : Gossipsub.MessageId)
  /-- A listener's swarm handles its next gossipsub event. -/
  | processEvent (q : PeerId)
  | sink (q : PeerId) (a : PipelineAction)

/-- The steps of the encoder and the message loop. -/
def PipelineAction.atSource : PipelineAction → Bool
  | .queueBuffer _ | .setTitle _ | .recvBuffer | .titleChanged | .borrowTitle | .sendPub => true
  | _ => false

/-- The steps behind a listener's swarm. -/
def PipelineAction.atSink : PipelineAction → Bool
  | .sendSub | .bridgeRecv | .bridgeSend | .decode => true
  | _ => false

namespace Airwaves

/-- What the network does on its own.  A swarm that waits for its queue handles no event. -/
def allows (T : Topology) (s : Airwaves) : NetAction → Bool
  | .air _ _ => false
  | .poll p => p = T.streamer
  | .mdns p _ => (s.sink p).swarmSending.isNone
  | _ => true

/-- The message a listener's swarm hands on when it handles its next event. -/
def handing (T : Topology) (n : Node) : Option Message :=
  n.events.head?.bind fun event =>
    (processListenerEvent n.gossipsub T.streamer (.behaviour (.gossipsub event))).2

def step (T : Topology) (s : Airwaves) : AirwavesAction → Option Airwaves
  | .source a =>
    if a.atSource then do
      let source ← s.source.step T.streamer a
      return { s with source }
    else none
  | .publish seqNo => do
    let (msg, gossipPub) ← s.source.gossipPub.recv
    let net ← T.step s.net (.air msg seqNo)
    return { s with source := { s.source with gossipPub }, aired := s.aired ++ [msg], net }
  | .publishFails => do
    -- `publish_data` logs the error, and the message is gone.
    let (msg, gossipPub) ← s.source.gossipPub.recv
    return { s with source := { s.source with gossipPub }, aired := s.aired ++ [msg] }
  | .net a =>
    if s.allows T a then do
      let net ← T.step s.net a
      return { s with net }
    else none
  | .expire p id => do
    let net ← s.net.expire p id
    return { s with net }
  | .processEvent q =>
    if q ∈ T.listeners ∧ (s.sink q).swarmSending.isNone then do
      let net ← T.step s.net (.poll q)
      return { s with
        net
        sink := Function.update s.sink q
          { s.sink q with swarmSending := handing T (s.net.node q) } }
    else none
  | .sink q a =>
    if q ∈ T.listeners ∧ a.atSink then do
      let sink ← (s.sink q).step T.streamer a
      return { s with sink := Function.update s.sink q sink }
    else none

end Airwaves

/-- The streamer and its listeners from their start, with queues of any capacity. -/
def airwaves (T : Topology) (c : Capacities) : System Airwaves AirwavesAction where
  init :=
    { source := (pipeline T.streamer c).init
      sink := fun _ => (pipeline T.streamer c).init }
  step := Airwaves.step T

namespace Airwaves

variable {T : Topology} {c : Capacities} {s s' : Airwaves}

/-! ## The network -/

lemma simulates_expiring : Simulates (airwaves T c) T.expiring net where
  init := rfl
  step s a s' hs := by
    cases a with
    | source a =>
      obtain ⟨-, hs⟩ := Option.ite_none_right_eq_some.mp hs
      obtain ⟨source, -, hs⟩ := Option.bind_eq_some_iff.mp hs
      obtain rfl := Option.some.inj hs
      exact Or.inl rfl
    | publish seqNo =>
      obtain ⟨⟨msg, gossipPub⟩, -, hs⟩ := Option.bind_eq_some_iff.mp hs
      obtain ⟨net, hnet, hs⟩ := Option.bind_eq_some_iff.mp hs
      obtain rfl := Option.some.inj hs
      exact Or.inr ⟨.net (.air msg seqNo), hnet⟩
    | publishFails =>
      obtain ⟨⟨msg, gossipPub⟩, -, hs⟩ := Option.bind_eq_some_iff.mp hs
      obtain rfl := Option.some.inj hs
      exact Or.inl rfl
    | net a =>
      obtain ⟨-, hs⟩ := Option.ite_none_right_eq_some.mp hs
      obtain ⟨net, hnet, hs⟩ := Option.bind_eq_some_iff.mp hs
      obtain rfl := Option.some.inj hs
      exact Or.inr ⟨.net a, hnet⟩
    | expire p id =>
      obtain ⟨net, hnet, hs⟩ := Option.bind_eq_some_iff.mp hs
      obtain rfl := Option.some.inj hs
      exact Or.inr ⟨.expire p id, hnet⟩
    | processEvent q =>
      obtain ⟨-, hs⟩ := Option.ite_none_right_eq_some.mp hs
      obtain ⟨net, hnet, hs⟩ := Option.bind_eq_some_iff.mp hs
      obtain rfl := Option.some.inj hs
      exact Or.inr ⟨.net (.poll q), hnet⟩
    | sink q a =>
      obtain ⟨-, hs⟩ := Option.ite_none_right_eq_some.mp hs
      obtain ⟨sink, -, hs⟩ := Option.bind_eq_some_iff.mp hs
      obtain rfl := Option.some.inj hs
      exact Or.inl rfl

/-! ## The streamer's end -/

/-- The streamer's end as a conduit, out of which comes what is aired. -/
def encoder (s : Airwaves) : Conduit where
  sink := s.source.sinkRx.items
  cell := s.source.titleCh
  seen := s.source.titleRx
  looking := s.source.msgLoop = .titleChanged
  inFlight := s.source.gossipPub.items ++ s.source.msgLoop.pending
  delivered := s.aired
  queued := packetsOf s.aired
  decoded := []
  title := (titlesOf s.aired).getLast?.getD ""
  produced := s.source.produced
  titlesSet := s.source.titlesSet

lemma encoder_step_source {a : PipelineAction} {source : Pipeline} (ha : a.atSource)
    (hs : s.source.step T.streamer a = some source) :
    s.encoder.Step { s with source }.encoder := by
  cases a with
  | queueBuffer buf =>
    obtain ⟨sinkRx, hsend, hs⟩ := Option.bind_eq_some_iff.mp hs
    obtain rfl := Option.some.inj hs
    apply (Conduit.Step.queue (c := s.encoder) buf).of_eq
    simp [encoder, Fifo.items_of_send hsend]
  | setTitle title =>
    obtain rfl := Option.some.inj hs
    exact .set title
  | recvBuffer =>
    simp only [Pipeline.step] at hs
    split at hs
    · next hloop =>
      obtain ⟨⟨buf, sinkRx⟩, hrecv, hs⟩ := Option.bind_eq_some_iff.mp hs
      obtain rfl := Option.some.inj hs
      apply (Conduit.Step.takeBuffer (c := s.encoder) (Fifo.items_of_recv hrecv)).of_eq
      simp [encoder, hloop, MsgLoop.pending]
    · cases hs
  | titleChanged =>
    simp only [Pipeline.step] at hs
    split at hs
    · next hloop =>
      split at hs
      · cases hs
      · next hne =>
        obtain rfl := Option.some.inj hs
        apply (Conduit.Step.look (c := s.encoder) (by simp [encoder, hloop]) hne).of_eq
        simp [encoder, hloop, MsgLoop.pending]
    · cases hs
  | borrowTitle =>
    simp only [Pipeline.step] at hs
    split at hs
    · next hloop =>
      obtain rfl := Option.some.inj hs
      have hlooking : s.encoder.looking = true := by simp [encoder, hloop]
      rcases hvalue : s.source.titleCh.value with _ | title
      · apply (Conduit.Step.lookEmpty (c := s.encoder) hlooking hvalue).of_eq
        simp [encoder, hloop, MsgLoop.pending]
      · apply (Conduit.Step.takeTitle (c := s.encoder) hlooking hvalue).of_eq
        simp [encoder, hloop, MsgLoop.pending]
    · cases hs
  | sendPub =>
    simp only [Pipeline.step] at hs
    split at hs
    · next msg hloop =>
      obtain ⟨gossipPub, hsend, hs⟩ := Option.bind_eq_some_iff.mp hs
      obtain rfl := Option.some.inj hs
      apply (Conduit.Step.stay (c := s.encoder)).of_eq
      simp [encoder, hloop, MsgLoop.pending, Fifo.items_of_send hsend]
    · cases hs
  | _ => cases ha

/-- Airing a message takes the oldest one out of the conduit, whatever becomes of it. -/
lemma encoder_step_publish {msg : Message} {gossipPub : Fifo Message}
    (hrecv : s.source.gossipPub.recv = some (msg, gossipPub)) (net : Net) :
    s.encoder.Step
      { s with source := { s.source with gossipPub }, aired := s.aired ++ [msg], net }.encoder := by
  have hfirst : s.encoder.inFlight = msg :: (gossipPub.items ++ s.source.msgLoop.pending) := by
    show s.source.gossipPub.items ++ s.source.msgLoop.pending = _
    rw [Fifo.items_of_recv hrecv, List.cons_append]
  rcases msg with buf | ⟨⟨title⟩⟩
  · apply (Conduit.Step.deliverPacket hfirst).of_eq
    simp only [encoder, titlesOf_concat_audioPacket, packetsOf_concat_audioPacket]
  · apply (Conduit.Step.deliverTitle hfirst).of_eq
    simp only [encoder, packetsOf_concat_metadata, titlesOf_concat_metadata, List.getLast?_concat,
      Option.getD_some]

/-! ## The listeners' ends -/

/-- Everything a listener's end has taken from its swarm, from the oldest to the newest. -/
def taken (p : Pipeline) : List Message :=
  p.delivered ++ (p.bridgeSending.map .audioPacket).toList ++ p.gossipSub.items ++
    p.swarmSending.toList

lemma taken_step {a : PipelineAction} {p p' : Pipeline} {streamer : PeerId} (ha : a.atSink)
    (hs : p.step streamer a = some p') : taken p' = taken p := by
  cases a with
  | sendSub =>
    simp only [Pipeline.step] at hs
    split at hs
    · next msg hsending =>
      obtain ⟨gossipSub, hsend, hs⟩ := Option.bind_eq_some_iff.mp hs
      obtain rfl := Option.some.inj hs
      simp [taken, hsending, Fifo.items_of_send hsend]
    · cases hs
  | bridgeRecv =>
    simp only [Pipeline.step] at hs
    split at hs
    · next hsending =>
      obtain ⟨⟨msg, gossipSub⟩, hrecv, hs⟩ := Option.bind_eq_some_iff.mp hs
      rcases msg with bytes | ⟨title⟩
      · obtain rfl := Option.some.inj hs
        simp [taken, hsending, Fifo.items_of_recv hrecv]
      · obtain rfl := Option.some.inj hs
        simp [taken, hsending, Fifo.items_of_recv hrecv]
    · cases hs
  | bridgeSend =>
    simp only [Pipeline.step] at hs
    split at hs
    · next bytes hsending =>
      obtain ⟨audio, hsend, hs⟩ := Option.bind_eq_some_iff.mp hs
      obtain rfl := Option.some.inj hs
      simp [taken, hsending]
    · cases hs
  | decode =>
    obtain ⟨⟨bytes, audio⟩, hrecv, hs⟩ := Option.bind_eq_some_iff.mp hs
    obtain rfl := Option.some.inj hs
    rfl
  | _ => cases ha

/-! ## Between the ends -/

lemma contentOf_aired (msg : Message) (seqNo : UInt64) :
    contentOf (T.aired msg seqNo) = some msg :=
  contentOf_eq_some_iff.mpr (Message.decode_encode msg)

/-- The contents of the messages of the streamer, and those of all other messages. -/
def streamersContents (T : Topology) (published : List Gossipsub.Message) : List Message :=
  (published.filter fun m => m.source = some T.streamer).filterMap contentOf

/-- Gossipsub publishes what is aired, or loses it, and nothing else under the streamer's
name. -/
lemma streamersContents_step {t t' : Net} {a : NetAction} (hs : T.step t a = some t')
    {aired : List Message} (h : (streamersContents T t.published).Sublist aired) :
    (∀ msg seqNo, a = .air msg seqNo →
      (streamersContents T t'.published).Sublist (aired ++ [msg])) ∧
    ((∀ msg seqNo, a ≠ .air msg seqNo) →
      (streamersContents T t'.published).Sublist aired) := by
  cases T.steps_of_step hs with
  | airDuplicate =>
    refine ⟨?_, fun hne => absurd rfl (hne _ _)⟩
    rintro _ _ ⟨⟩
    exact h.trans (List.sublist_append_left _ _)
  | @air msg seqNo =>
    refine ⟨?_, fun hne => absurd rfl (hne _ _)⟩
    rintro _ _ ⟨⟩
    have hcontents : streamersContents T (t.published ++ [T.aired msg seqNo]) =
        streamersContents T t.published ++ [msg] := by
      have hown : (T.aired msg seqNo).source = some T.streamer := rfl
      simp only [streamersContents, List.filter_append, List.filterMap_append,
        List.filter_singleton, hown, decide_true, cond_true, List.filterMap_cons,
        contentOf_aired, List.filterMap_nil]
    show (streamersContents T (t.published ++ [T.aired msg seqNo])).Sublist _
    rw [hcontents]
    exact h.append (List.Sublist.refl [msg])
  | @publish author data seqNo hauthor =>
    refine ⟨nofun, fun _ => ?_⟩
    have hne : author ≠ T.streamer := fun heq => T.streamer_notMem_others (heq ▸ hauthor)
    have hcontents : streamersContents T
        (t.published ++ [{ source := some author, data, sequenceNumber := some seqNo }]) =
          streamersContents T t.published := by
      simp [streamersContents, hne]
    show (streamersContents T (t.published ++ [_])).Sublist _
    rw [hcontents]
    exact h
  | _ => exact ⟨nofun, fun _ => h⟩

/-- A listener hands on a message only when it handles an event. -/
lemma handed_step {t t' : Net} {a : NetAction} (hs : T.step t a = some t') {q : PeerId}
    (hq : q ∈ T.listeners) (ha : a ≠ .poll q) : (t'.node q).handed = (t.node q).handed := by
  have hne : q ≠ T.streamer := fun heq => T.streamer_notMem_listeners (heq ▸ hq)
  have hnode := T.nodeStep hs q
  revert hnode
  generalize t'.node q = n'
  intro hnode
  cases hnode with
  | idle => rfl
  | airDuplicate hstreamer => exact absurd hstreamer hne
  | air hstreamer => exact absurd hstreamer hne
  | pollStreamer hstreamer => exact absurd hstreamer hne
  | deliver => exact Node.handed_receive _ _ _ _
  | pollListener => exact absurd rfl ha
  | mdns => rfl

lemma map_snd_handedOn (b : Gossipsub.Behaviour) (streamer : PeerId) (event : Gossipsub.Event) :
    (handedOn event (processGossipSubEvent b event streamer).2).map Prod.snd =
      (processGossipSubEvent b event streamer).2.toList := by
  cases event with
  | other => rfl
  | message source id m =>
    cases (processGossipSubEvent b (.message source id m) streamer).2 with
    | none => rfl
    | some msg => rfl

/-- When it handles one, what it hands on is `handing`. -/
lemma handed_poll {t t' : Net} {q : PeerId} (hs : T.step t (.poll q) = some t')
    (hq : q ∈ T.listeners) :
    (t'.node q).handed.map Prod.snd =
      (t.node q).handed.map Prod.snd ++ (handing T (t.node q)).toList := by
  have hne : q ≠ T.streamer := fun heq => T.streamer_notMem_listeners (heq ▸ hq)
  cases T.steps_of_step hs with
  | pollStreamer => exact absurd rfl hne
  | @pollListener _ event rest _ hqueue =>
    rw [Net.update_node_self, handing, hqueue, List.head?_cons, Option.bind_some]
    show ((t.node q).handed ++
      handedOn event (processGossipSubEvent _ event T.streamer).2).map Prod.snd = _
    rw [List.map_append, map_snd_handedOn]
    rfl

/-! ## What the whole keeps -/

/-- The streamer's end is sound, a listener's end holds what its swarm handed on, with its outlet
in order, and only what was aired is published under the streamer's name. -/
structure Sound (T : Topology) (s : Airwaves) : Prop where
  encoder : s.encoder.Sound
  sink_eq : ∀ q ∈ T.listeners, taken (s.sink q) = (s.net.node q).handed.map Prod.snd
  outlet : ∀ q ∈ T.listeners, (s.sink q).conduit.Outlet
  published_aired : (streamersContents T s.net.published).Sublist s.aired

namespace Sound

lemma initial (T : Topology) (c : Capacities) : Sound T (airwaves T c).init where
  encoder := ⟨rfl, ⟨rfl, rfl⟩, ⟨0, Watch.readUpTo_nil, nofun, fun _ => rfl⟩, ⟨rfl, rfl⟩⟩
  sink_eq _ _ := rfl
  outlet _ _ := ⟨rfl, rfl⟩
  published_aired := List.Sublist.refl []

/-- A step of the network by itself, which no end notices. -/
lemma netStep (h : Sound T s) {a : NetAction} {net : Net} (hs : T.step s.net a = some net)
    (hair : ∀ msg seqNo, a ≠ .air msg seqNo) (hpoll : ∀ q ∈ T.listeners, a ≠ .poll q) :
    Sound T { s with net } where
  encoder := h.encoder
  sink_eq q hq := by
    show taken (s.sink q) = (net.node q).handed.map Prod.snd
    rw [handed_step hs hq (hpoll q hq)]
    exact h.sink_eq q hq
  outlet := h.outlet
  published_aired := (streamersContents_step hs h.published_aired).2 hair

lemma step (h : Sound T s) {a : AirwavesAction} (hs : s.step T a = some s') : Sound T s' := by
  cases a with
  | source a =>
    obtain ⟨ha, hs⟩ := Option.ite_none_right_eq_some.mp hs
    obtain ⟨source, hsource, hs⟩ := Option.bind_eq_some_iff.mp hs
    obtain rfl := Option.some.inj hs
    exact ⟨h.encoder.step (encoder_step_source ha hsource), h.sink_eq, h.outlet,
      h.published_aired⟩
  | publish seqNo =>
    obtain ⟨⟨msg, gossipPub⟩, hrecv, hs⟩ := Option.bind_eq_some_iff.mp hs
    obtain ⟨net, hnet, hs⟩ := Option.bind_eq_some_iff.mp hs
    obtain rfl := Option.some.inj hs
    refine ⟨h.encoder.step (encoder_step_publish hrecv net), fun q hq => ?_, h.outlet, ?_⟩
    · show taken (s.sink q) = (net.node q).handed.map Prod.snd
      rw [handed_step hnet hq nofun]
      exact h.sink_eq q hq
    · exact (streamersContents_step hnet h.published_aired).1 msg seqNo rfl
  | publishFails =>
    obtain ⟨⟨msg, gossipPub⟩, hrecv, hs⟩ := Option.bind_eq_some_iff.mp hs
    obtain rfl := Option.some.inj hs
    exact ⟨h.encoder.step (encoder_step_publish hrecv s.net), h.sink_eq, h.outlet,
      h.published_aired.trans (List.sublist_append_left _ _)⟩
  | net a =>
    obtain ⟨hallows, hs⟩ := Option.ite_none_right_eq_some.mp hs
    obtain ⟨net, hnet, hs⟩ := Option.bind_eq_some_iff.mp hs
    obtain rfl := Option.some.inj hs
    refine h.netStep hnet ?_ ?_
    · rintro msg seqNo rfl
      cases hallows
    · rintro q hq rfl
      have hstreamer : q = T.streamer := of_decide_eq_true hallows
      exact T.streamer_notMem_listeners (hstreamer ▸ hq)
  | expire p id =>
    obtain ⟨net, hnet, hs⟩ := Option.bind_eq_some_iff.mp hs
    obtain rfl := Option.some.inj hs
    refine ⟨h.encoder, fun q hq => ?_, h.outlet, ?_⟩
    · exact Net.node_of_expire (P := fun n => taken (s.sink q) = n.handed.map Prod.snd) hnet q
        (h.sink_eq q hq) (h.sink_eq q hq)
    · obtain rfl := Net.eq_of_expire hnet
      exact h.published_aired
  | processEvent q =>
    obtain ⟨⟨hq, hfree⟩, hs⟩ := Option.ite_none_right_eq_some.mp hs
    obtain ⟨net, hnet, hs⟩ := Option.bind_eq_some_iff.mp hs
    obtain rfl := Option.some.inj hs
    refine ⟨h.encoder, fun p hp => ?_, fun p hp => ?_, ?_⟩
    · by_cases heq : p = q
      · subst heq
        show taken (Function.update s.sink p _ p) = (net.node p).handed.map Prod.snd
        rw [Function.update_self, handed_poll hnet hq, ← h.sink_eq p hp]
        have hempty : (s.sink p).swarmSending = none := Option.isNone_iff_eq_none.mp hfree
        simp only [taken, hempty, Option.toList_none, List.append_nil]
      · show taken (Function.update s.sink q _ p) = (net.node p).handed.map Prod.snd
        have hother : (.poll q : NetAction) ≠ .poll p :=
          fun hpoll => heq (NetAction.poll.inj hpoll).symm
        rw [Function.update_of_ne heq, handed_step hnet hp hother]
        exact h.sink_eq p hp
    · by_cases heq : p = q
      · subst heq
        simp only [Function.update_self]
        exact ⟨(h.outlet p hp).delivered_eq, (h.outlet p hp).title_eq⟩
      · simp only [Function.update_of_ne heq]
        exact h.outlet p hp
    · exact (streamersContents_step hnet h.published_aired).2 nofun
  | sink q a =>
    obtain ⟨⟨hq, ha⟩, hs⟩ := Option.ite_none_right_eq_some.mp hs
    obtain ⟨sink, hsink, hs⟩ := Option.bind_eq_some_iff.mp hs
    obtain rfl := Option.some.inj hs
    refine ⟨h.encoder, fun p hp => ?_, fun p hp => ?_, h.published_aired⟩
    · by_cases heq : p = q
      · subst heq
        simp only [Function.update_self, taken_step ha hsink]
        exact h.sink_eq p hq
      · simp only [Function.update_of_ne heq]
        exact h.sink_eq p hp
    · by_cases heq : p = q
      · subst heq
        simp only [Function.update_self]
        exact (h.outlet p hq).step (Pipeline.conduit_step hsink)
      · simp only [Function.update_of_ne heq]
        exact h.outlet p hp

lemma of_reachable (hr : (airwaves T c).Reachable s) : Sound T s :=
  hr.invariant (initial T c) fun _ _ _ _ h hs => h.step hs

end Sound

/-! ## What reaches a decoder -/

end Airwaves

end P2PRadio
