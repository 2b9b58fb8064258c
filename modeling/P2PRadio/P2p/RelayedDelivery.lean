import Mathlib.Data.Finset.Lattice.Lemmas
import P2PRadio.P2p.Duplicates

/-!
# Delivery through other listeners

The network the README describes: the streamer and its listeners, who help to distribute the
streamer's messages to each other.  Nobody else publishes, so every message that reaches a
listener was written by the streamer.

A listener takes only copies that come from the streamer itself.  When the first copy of a
message comes through another listener, gossipsub raises its event, the handler drops the
message and blacklists the relay, and the streamer's own copy is later ignored as a duplicate
(`not_relayed_delivery`).  `relayed_delivery_iff` says exactly which runs deliver: those in
which no listener handles a message that first came through another listener.
-/

namespace P2PRadio

open Transition

/-- The network of a streamer and its listeners. -/
def Topology.radio (streamer : PeerId) (listeners : Finset PeerId) : Topology where
  streamer
  listeners := listeners.erase streamer
  others := ∅
  streamer_notMem_listeners := Finset.notMem_erase streamer listeners
  streamer_notMem_others := Finset.notMem_empty streamer
  listeners_disjoint_others := Finset.disjoint_empty_right _

/-! ## What is to be delivered -/

/-- The message an event announces. -/
def announced : Gossipsub.Event → Option Gossipsub.Message
  | .message _ _ m => some m
  | .other => none

/-- The messages whose events wait to be handled. -/
def Node.pending (n : Node) : List Gossipsub.Message := n.events.filterMap announced

/-- Every decodable message of the streamer of which a listener's gossipsub received a valid
copy is handed on once: its event is still waiting, or it was handed on, not both and
nothing twice. -/
def Topology.HandedOnce (T : Topology) (s : Net) : Prop :=
  ∀ q ∈ T.listeners, ∀ m, m ∈ (s.node q).accepted.map Prod.snd ∨ m ∈ (s.node q).ignored →
    m.source = some T.streamer → (∃ msg, Message.decode m.data = some (.ok msg)) →
      ((s.node q).handed.map Prod.fst).count m + (s.node q).pending.count m = 1

/-- A peer that has sent only messages of the streamer is neither blacklisted nor removed from
the explicit peers by any listener's gossipsub handler. -/
def Topology.SparesRelays (T : Topology) (s : Net) : Prop :=
  ∀ p, (∀ c ∈ s.sent, c.sender = p → c.message.source = some T.streamer) →
    ∀ q ∈ T.listeners, p ∉ (s.node q).gossipsub.blacklistedPeers ∧ p ∉ (s.node q).removed

/-- The step takes the branch that goes wrong: a listener handles a message whose first copy
came from another peer than the streamer. -/
def Topology.HandlesFromRelay (T : Topology) (s : Net) (a : NetAction) : Prop :=
  ∃ q ∈ T.listeners, a = .poll q ∧ ∃ source id m rest,
    (s.node q).events = .message source id m :: rest ∧ source ≠ T.streamer

/-! ## Only the streamer writes -/

/-- What is published in a network without other peers was aired by the streamer. -/
lemma Topology.published_aired {T : Topology} (hT : T.others = ∅) {s : Net}
    (hr : T.network.Reachable s) : ∀ m ∈ s.published, ∃ msg seqNo, m = T.aired msg seqNo := by
  refine hr.invariant (P := fun s => ∀ m ∈ s.published, ∃ msg seqNo, m = T.aired msg seqNo)
    (by simp [Topology.network]) (fun s a s' _ ih hstep m hm => ?_)
  cases T.steps_of_step hstep with
  | air =>
    rcases List.mem_append.mp hm with hm | hm
    · exact ih m hm
    · exact ⟨_, _, List.mem_singleton.mp hm⟩
  | publish hauthor =>
    rw [hT] at hauthor
    exact absurd hauthor (Finset.notMem_empty _)
  | _ => exact ih m hm

/-! ## The invariant of the runs that deliver -/

/-- What one listener keeps while every message it handles came from the streamer: what it
handed on, followed by what waits, is what it accepted, in order. -/
structure Node.Delivers (n : Node) : Prop where
  blacklist_empty : n.gossipsub.blacklistedPeers = ∅
  removed_empty : n.removed = ∅
  handed_pending : n.handed.map Prod.fst ++ n.pending = n.accepted.map Prod.snd

namespace Node.Delivers

variable {n : Node}

lemma initial : Node.Delivers {} := ⟨rfl, rfl, rfl⟩

/-- A copy of a message that somebody else wrote is accepted or ignored, never rejected. -/
lemma receive (h : n.Delivers) {own source author : PeerId} {m : Gossipsub.Message}
    (hm : m.source = some author) (hne : author ≠ own) : (n.receive own source m).Delivers := by
  have hrej : ¬ n.Rejects own source m := by
    rintro (hsource | ⟨p, hp, -⟩ | hown)
    · rw [h.blacklist_empty] at hsource
      exact Finset.notMem_empty _ hsource
    · rw [h.blacklist_empty] at hp
      exact Finset.notMem_empty _ hp
    · rw [hm] at hown
      exact hne (Option.some.inj hown)
  rw [Node.receive, if_neg hrej]
  split
  · exact ⟨h.blacklist_empty, h.removed_empty, h.handed_pending⟩
  · refine ⟨h.blacklist_empty, h.removed_empty, ?_⟩
    have hp : Node.pending { n.accept source m with
        events := n.events ++ [.message source (messageId m) m] } = n.pending ++ [m] := by
      simp only [Node.pending, List.filterMap_append]
      rfl
    rw [hp, ← List.append_assoc]
    show (n.handed.map Prod.fst ++ n.pending) ++ [m] = (n.accepted ++ [(source, m)]).map Prod.snd
    rw [h.handed_pending, List.map_append]
    rfl

/-- Handling a decodable message that came from the streamer moves it from the queue to what
was handed on. -/
lemma handleListener (h : n.Delivers) {streamer : PeerId} {id : Gossipsub.MessageId}
    {m : Gossipsub.Message} {msg : Message} {rest : List Gossipsub.Event}
    (hqueue : n.events = .message streamer id m :: rest) (hnum : m.sequenceNumber.isSome)
    (hdec : Message.decode m.data = some (.ok msg)) :
    (n.handleListener streamer (.message streamer id m) rest).Delivers := by
  have hsnd := (processGossipSubEvent_streamer_snd n.gossipsub id m streamer msg).mpr
    ⟨hnum, hdec⟩
  have hfst := processGossipSubEvent_streamer_fst n.gossipsub id m streamer
  unfold Node.handleListener
  simp only [processListenerEvent, processListenerBehaviorEvent, hsnd, hfst, handedOn]
  refine ⟨h.blacklist_empty, ?_, ?_⟩
  · show n.removed ∪ (n.gossipsub.explicitPeers \ n.gossipsub.explicitPeers) = ∅
    rw [Finset.sdiff_self, Finset.union_empty, h.removed_empty]
  · have hp : n.pending = m :: rest.filterMap announced := by
      rw [Node.pending, hqueue]
      rfl
    have hall := h.handed_pending
    rw [hp] at hall
    show (n.handed ++ [(m, msg)]).map Prod.fst ++ rest.filterMap announced = _
    rw [List.map_append, List.append_assoc]
    exact hall

/-- Every accepted message is handed on or waiting, exactly once in all. -/
lemma count_eq_one (h : n.Delivers) {published : List Gossipsub.Message}
    (hsound : n.Sound published) {m : Gossipsub.Message}
    (hm : m ∈ n.accepted.map Prod.snd) :
    (n.handed.map Prod.fst).count m + n.pending.count m = 1 := by
  have hnodup : (n.accepted.map Prod.snd).Nodup := by
    have hids : ((n.accepted.map Prod.snd).map messageId).Nodup := by
      rw [List.map_map]
      exact hsound.ids_nodup
    exact hids.of_map messageId
  rw [← List.count_append, h.handed_pending]
  exact List.count_eq_one_of_mem hnodup hm

end Node.Delivers

/-- The whole network of such listeners. -/
structure Topology.Delivers (T : Topology) (s : Net) : Prop where
  sound : T.Sound s
  repeats : T.DuplicatesAreRepeats s
  node_delivers : ∀ q ∈ T.listeners, (s.node q).Delivers

section
variable {T : Topology} {s s' : Net} {a : NetAction}

lemma Topology.Delivers.step (hT : T.others = ∅) (hr : T.network.Reachable s)
    (h : T.Delivers s) (hstep : T.step s a = some s') (ha : ¬ T.HandlesFromRelay s a) :
    T.Delivers s' := by
  have haired := T.published_aired hT hr
  have hnumber : ¬ T.MeetsSameNumber s a := by
    rintro ⟨q, m, -, -, e, he, hes, -⟩
    obtain ⟨msg, seqNo, heq⟩ := haired e.2 ((h.sound.node_sound q).accepted_published e he)
    rw [heq] at hes
    exact hes rfl
  refine ⟨.of_reachable (hr.step hstep),
    T.duplicatesAreRepeats_step h.sound h.repeats hstep hnumber, fun q hq => ?_⟩
  have hn := h.node_delivers q hq
  have hne : q ≠ T.streamer := fun heq => T.streamer_notMem_listeners (heq ▸ hq)
  have hnode := T.nodeStep hstep q
  revert hnode
  generalize s'.node q = n'
  intro hnode
  cases hnode with
  | idle => exact hn
  | airDuplicate hstreamer => exact absurd hstreamer hne
  | air hstreamer => exact absurd hstreamer hne
  | pollStreamer hstreamer => exact absurd hstreamer hne
  | @deliver c hc hreceiver =>
    obtain ⟨msg, seqNo, heq⟩ := haired c.message (h.sound.sent_published c hc)
    have hsource : c.message.source = some T.streamer := by
      rw [heq]
      rfl
    exact hn.receive hsource hne.symm
  | @pollListener event rest _ hqueue =>
    cases event with
    | other =>
      refine ⟨hn.blacklist_empty, ?_, ?_⟩
      · show (s.node q).removed ∪
          ((s.node q).gossipsub.explicitPeers \ (s.node q).gossipsub.explicitPeers) = ∅
        rw [Finset.sdiff_self, Finset.union_empty, hn.removed_empty]
      · have hall := hn.handed_pending
        rw [Node.pending, hqueue] at hall
        show ((s.node q).handed ++ []).map Prod.fst ++ rest.filterMap announced = _
        rw [List.append_nil]
        exact hall
    | message source id m =>
      obtain rfl : source = T.streamer := by
        by_contra hsource
        exact ha ⟨q, hq, rfl, source, id, m, rest, hqueue, hsource⟩
      have hpub : m ∈ s.published := (h.sound.node_sound q).accepted_published _
        ((h.sound.node_sound q).events_accepted _ id m (by rw [hqueue]; exact .head _))
      obtain ⟨msg, seqNo, rfl⟩ := haired m hpub
      exact hn.handleListener hqueue rfl (Message.decode_encode msg)
  | mdns =>
    exact ⟨(blacklistedPeers_processMdnsEvent _ _).trans hn.blacklist_empty, hn.removed_empty,
      hn.handed_pending⟩

lemma Topology.Delivers.handedOnce (h : T.Delivers s) : T.HandedOnce s := by
  intro q hq m hm hsource _
  have haccepted : m ∈ (s.node q).accepted.map Prod.snd := by
    rcases hm with hm | hm
    · exact hm
    · obtain ⟨source, hacc⟩ := h.repeats q m hm hsource
      exact List.mem_map.mpr ⟨_, hacc, rfl⟩
  exact (h.node_delivers q hq).count_eq_one (h.sound.node_sound q) haccepted

lemma Topology.Delivers.sparesRelays (h : T.Delivers s) : T.SparesRelays s := by
  intro p _ q hq
  rw [(h.node_delivers q hq).blacklist_empty, (h.node_delivers q hq).removed_empty]
  exact ⟨Finset.notMem_empty p, Finset.notMem_empty p⟩

/-- Handling a message from a relay blacklists it, whatever it relayed. -/
lemma Topology.not_sparesRelays_step (hT : T.others = ∅) (hr' : T.network.Reachable s')
    (hstep : T.step s a = some s') (ha : T.HandlesFromRelay s a) : ¬ T.SparesRelays s' := by
  obtain ⟨q, hq, rfl, source, id, m, rest, hqueue, hsource⟩ := ha
  have hne : q ≠ T.streamer := fun heq => T.streamer_notMem_listeners (heq ▸ hq)
  intro hspares
  refine (hspares source (fun c hc _ => ?_) q hq).1 ?_
  · obtain ⟨msg, seqNo, heq⟩ := T.published_aired hT hr' c.message
      ((Topology.Sound.of_reachable hr').sent_published c hc)
    rw [heq]
    rfl
  · simp only [step, hqueue, if_neg hne, if_pos hq, Option.some.injEq] at hstep
    rw [← hstep, Net.update_node_self, Node.handleListener]
    simp only [processListenerEvent, processListenerBehaviorEvent,
      processGossipSubEvent_of_ne hsource, Gossipsub.Behaviour.blacklistedPeers_removeExplicitPeer,
      Gossipsub.Behaviour.blacklistedPeers_blacklistPeer]
    exact Finset.mem_insert_self _ _

end

/-- **Relayed delivery works exactly while nothing is relayed first.**  In a run of a network
of a streamer and listeners, each decodable message received is handed on exactly once and no
relay is blacklisted or removed, if and only if no listener ever handles a message whose first
copy came from another peer than the streamer. -/
theorem relayed_delivery_iff (streamer : PeerId) (listeners : Finset PeerId)
    (r : Run (Topology.radio streamer listeners).network) :
    (∀ s, r.Visits s → (Topology.radio streamer listeners).HandedOnce s ∧
      (Topology.radio streamer listeners).SparesRelays s) ↔
      ∀ s a, r.Takes s a → ¬ (Topology.radio streamer listeners).HandlesFromRelay s a := by
  let T := Topology.radio streamer listeners
  apply r.forall_visits_iff (P := fun s => T.HandedOnce s ∧ T.SparesRelays s)
    (J := T.Delivers) (C := fun s a => ¬ T.HandlesFromRelay s a)
  · exact ⟨Topology.Sound.initial, fun q m hm => absurd hm (List.not_mem_nil (a := m)),
      fun _ _ => Node.Delivers.initial⟩
  · intro s _ hs
    exact ⟨hs.handedOnce, hs.sparesRelays⟩
  · intro s a s' hr hs hstep ha
    exact hs.step rfl hr hstep ha
  · rintro s a s' hr hstep ha ⟨-, hspares⟩
    exact T.not_sparesRelays_step rfl (hr.step hstep) hstep (not_not.mp ha) hspares

/-- Listener `2` gets a message from the streamer and forwards it to listener `3`, where it
arrives before the streamer's own copy.  Listener `3` drops it, blacklists listener `2`, and
ignores the streamer's copy as a duplicate. -/
theorem not_relayed_delivery :
    (¬ ∀ (streamer : PeerId) (listeners : Finset PeerId)
      (r : Run (Topology.radio streamer listeners).network) (s : Net), r.Visits s →
        (Topology.radio streamer listeners).HandedOnce s) ∧
    ¬ ∀ (streamer : PeerId) (listeners : Finset PeerId)
      (r : Run (Topology.radio streamer listeners).network) (s : Net), r.Visits s →
        (Topology.radio streamer listeners).SparesRelays s := by
  let streamer : PeerId := { multihash := [1] }
  let relay : PeerId := { multihash := [2] }
  let listener : PeerId := { multihash := [3] }
  let m : Gossipsub.Message :=
    { source := some streamer, data := [0, 42], sequenceNumber := some 1 }
  let r : Run (Topology.radio streamer {relay, listener}).network := Run.ofActions
    [.air (.audioPacket [42]) 1,
      .forward ⟨streamer, relay, m⟩, .deliver ⟨streamer, relay, m⟩,
      .forward ⟨relay, listener, m⟩, .deliver ⟨relay, listener, m⟩, .poll listener,
      .forward ⟨streamer, listener, m⟩, .deliver ⟨streamer, listener, m⟩] (by decide)
  constructor
  · intro hall
    have hcount := hall streamer {relay, listener} r r.final r.visits_final listener (by decide)
      m (by decide) rfl ⟨.audioPacket [42], by decide⟩
    exact absurd hcount (by decide)
  · intro hall
    have hspared := hall streamer {relay, listener} r r.final r.visits_final relay (by decide)
      listener (by decide)
    exact absurd hspared.1 (by decide)

end P2PRadio
