import Mathlib.Data.Finset.Basic
import Mathlib.Logic.Function.Basic
import P2PRadio.Support.Transition
import P2PRadio.P2p.Swarm

/-!
# The gossipsub network of one topic

The streamer, any number of listeners running this program, and any number of other peers,
over every order of publish, forward and deliver steps.

What is libp2p's and not the repository's is modelled by its documented behaviour under the
configuration of `init_swarm` (strict validation, signed authenticity, everything else at its
default):

* a message carries a verified author and a sequence number, so a message by some author
  exists only if that author published it.  Strict validation refuses unsigned messages and
  messages without a sequence number, so there are none;
* a copy is rejected if the neighbour it came from or its author is blacklisted, or if it
  claims to be by the receiver itself; otherwise it is ignored if its id was seen before;
  otherwise it is accepted, which raises `Event::Message` and makes the node forward it, to
  any peer but the neighbour it came from and its author;
* `publish` fails with `Duplicate`, and the message is lost, if the id was seen before.

An honest author never uses a sequence number twice.  The other peers may sign anything with
any sequence number and may send any message that exists to anyone at any time.  Copies may
be delivered in any order, late, or never.  A node keeps the ids it has seen for ever; the network
in which they expire is `Topology.expiring`, in `P2p/Bookkeeping.lean`.
-/

namespace P2PRadio

open Transition

/-! ## State and steps -/

/-- Who takes part on the topic. -/
structure Topology where
  streamer : PeerId
  listeners : Finset PeerId
  others : Finset PeerId
  streamer_notMem_listeners : streamer ∉ listeners
  streamer_notMem_others : streamer ∉ others
  listeners_disjoint_others : Disjoint listeners others

/-- A copy of a message on its way from one neighbour to another. -/
structure Copy where
  sender : PeerId
  receiver : PeerId
  message : Gossipsub.Message
  deriving DecidableEq, Repr

/-- A node that runs this program.  `accepted` lists the messages its gossipsub accepted with
the neighbour each came from, its own publications included; `ignored` the copies dropped as
duplicates; `events` the events raised and not yet handled; `handed` what the handler sent on
`gossip_sub_tx`, with the gossipsub message it came from; `removed` the explicit peers the
gossipsub handler removed; `expired` the ids that have expired from its cache, which none does
in `network`.  All lists are oldest first. -/
structure Node where
  gossipsub : Gossipsub.Behaviour := {}
  accepted : List (PeerId × Gossipsub.Message) := []
  ignored : List Gossipsub.Message := []
  events : List Gossipsub.Event := []
  handed : List (Gossipsub.Message × Message) := []
  removed : Finset PeerId := ∅
  expired : List Gossipsub.MessageId := []

/-- The copy does not get as far as the cache of ids. -/
def Node.Rejects (n : Node) (own source : PeerId) (m : Gossipsub.Message) : Prop :=
  source ∈ n.gossipsub.blacklistedPeers ∨
    (∃ author ∈ n.gossipsub.blacklistedPeers, m.source = some author) ∨ m.source = some own

instance (n : Node) (own source : PeerId) (m : Gossipsub.Message) :
    Decidable (n.Rejects own source m) := inferInstanceAs (Decidable (_ ∨ _))

/-- Gossipsub takes a message it has not seen: from now on its id is a duplicate. -/
def Node.accept (n : Node) (source : PeerId) (m : Gossipsub.Message) : Node :=
  { n with
    gossipsub :=
      { n.gossipsub with duplicateCache := insert (messageId m) n.gossipsub.duplicateCache }
    accepted := n.accepted ++ [(source, m)] }

/-- Gossipsub drops a message whose id it has seen. -/
def Node.ignore (n : Node) (m : Gossipsub.Message) : Node :=
  { n with ignored := n.ignored ++ [m] }

/-- Gossipsub receives a copy from the neighbour `source`. -/
def Node.receive (n : Node) (own source : PeerId) (m : Gossipsub.Message) : Node :=
  if n.Rejects own source m then n
  else if messageId m ∈ n.gossipsub.duplicateCache then n.ignore m
  else { n.accept source m with events := n.events ++ [.message source (messageId m) m] }

/-- The pair logged when the handler hands a message on. -/
def handedOn : Gossipsub.Event → Option Message → List (Gossipsub.Message × Message)
  | .message _ _ m, some msg => [(m, msg)]
  | _, _ => []

/-- A listener's loop handles the gossipsub event at the head of its queue. -/
def Node.handleListener (n : Node) (streamer : PeerId) (event : Gossipsub.Event)
    (rest : List Gossipsub.Event) : Node :=
  let result := processListenerEvent n.gossipsub streamer (.behaviour (.gossipsub event))
  { n with
    gossipsub := result.1
    events := rest
    handed := n.handed ++ handedOn event result.2
    removed := n.removed ∪ (n.gossipsub.explicitPeers \ result.1.explicitPeers) }

/-- The streamer's loop handles the gossipsub event at the head of its queue. -/
def Node.handleStreamer (n : Node) (event : Gossipsub.Event) (rest : List Gossipsub.Event) :
    Node :=
  { n with
    gossipsub := processStreamerEvent n.gossipsub (.behaviour (.gossipsub event))
    events := rest }

/-- The network: every node, every message published, every copy sent, and the sequence
numbers the streamer has used. -/
structure Net where
  node : PeerId → Node := fun _ => {}
  published : List Gossipsub.Message := []
  sent : List Copy := []
  usedNumbers : List UInt64 := []

/-- One node changes. -/
def Net.update (s : Net) (p : PeerId) (n : Node) : Net :=
  { s with node := Function.update s.node p n }

inductive NetAction where
  /-- The streamer publishes the encoding of `msg` under the next sequence number libp2p
  gives it. -/
  | air (msg : Message) (seqNo : UInt64)
  /-- Another peer signs and publishes whatever it likes. -/
  | publish (author : PeerId) (data : Bytes) (seqNo : UInt64)
  /-- A copy is sent to a neighbour. -/
  | forward (copy : Copy)
  /-- A copy that was sent reaches its receiver's gossipsub. -/
  | deliver (copy : Copy)
  /-- The node's swarm loop handles its next gossipsub event. -/
  | poll (p : PeerId)
  /-- The node's swarm loop handles an mDNS event. -/
  | mdns (p : PeerId) (event : MdnsEvent)

/-- The streamer's message with content `msg` and sequence number `seqNo`. -/
def Topology.aired (T : Topology) (msg : Message) (seqNo : UInt64) : Gossipsub.Message :=
  { source := some T.streamer, data := msg.encode, sequenceNumber := some seqNo }

/-- Who may send which copy: a node of this program forwards what its gossipsub accepted, but
neither back to where it came from nor to its author; the others send what they like. -/
def Topology.MaySend (T : Topology) (s : Net) (c : Copy) : Prop :=
  ((c.sender = T.streamer ∨ c.sender ∈ T.listeners) ∧
    (∃ e ∈ (s.node c.sender).accepted, e.2 = c.message ∧ e.1 ≠ c.receiver) ∧
    c.message.source ≠ some c.receiver) ∨
  (c.sender ∈ T.others ∧ c.message ∈ s.published)

instance (T : Topology) (s : Net) (c : Copy) : Decidable (T.MaySend s c) :=
  inferInstanceAs (Decidable (_ ∨ _))

def Topology.step (T : Topology) (s : Net) : NetAction → Option Net
  | .air msg seqNo =>
    if seqNo ∈ s.usedNumbers then none
    else
      let m := T.aired msg seqNo
      let n := s.node T.streamer
      let s := { s with usedNumbers := s.usedNumbers ++ [seqNo] }
      if messageId m ∈ n.gossipsub.duplicateCache then some (s.update T.streamer (n.ignore m))
      else some { s.update T.streamer (n.accept T.streamer m) with
        published := s.published ++ [m] }
  | .publish author data seqNo =>
    if author ∈ T.others then
      some { s with published := s.published ++
        [{ source := some author, data, sequenceNumber := some seqNo }] }
    else none
  | .forward c => if T.MaySend s c then some { s with sent := s.sent ++ [c] } else none
  | .deliver c =>
    if c ∈ s.sent ∧ (c.receiver = T.streamer ∨ c.receiver ∈ T.listeners) then
      some (s.update c.receiver ((s.node c.receiver).receive c.receiver c.sender c.message))
    else none
  | .poll p =>
    match (s.node p).events with
    | [] => none
    | event :: rest =>
      if p = T.streamer then some (s.update p ((s.node p).handleStreamer event rest))
      else if p ∈ T.listeners then
        some (s.update p ((s.node p).handleListener T.streamer event rest))
      else none
  | .mdns p event =>
    let n := s.node p
    if p = T.streamer then
      some (s.update p { n with
        gossipsub := processStreamerEvent n.gossipsub (.behaviour (.mdns event)) })
    else if p ∈ T.listeners then
      some (s.update p { n with
        gossipsub :=
          (processListenerEvent n.gossipsub T.streamer (.behaviour (.mdns event))).1 })
    else none

/-- The network of a topology, from the moment its nodes have started. -/
def Topology.network (T : Topology) : System Net NetAction where
  init := {}
  step := T.step

/-! ## Step inversion -/

/-- Every step the network can take, with its guards and its outcome. -/
inductive Topology.Steps (T : Topology) (s : Net) : NetAction → Net → Prop
  | airDuplicate {msg : Message} {seqNo : UInt64} : seqNo ∉ s.usedNumbers →
      messageId (T.aired msg seqNo) ∈ (s.node T.streamer).gossipsub.duplicateCache →
      T.Steps s (.air msg seqNo)
        (Net.update { s with usedNumbers := s.usedNumbers ++ [seqNo] } T.streamer
          ((s.node T.streamer).ignore (T.aired msg seqNo)))
  | air {msg : Message} {seqNo : UInt64} : seqNo ∉ s.usedNumbers →
      messageId (T.aired msg seqNo) ∉ (s.node T.streamer).gossipsub.duplicateCache →
      T.Steps s (.air msg seqNo)
        (Net.update
          { s with
            usedNumbers := s.usedNumbers ++ [seqNo]
            published := s.published ++ [T.aired msg seqNo] } T.streamer
          ((s.node T.streamer).accept T.streamer (T.aired msg seqNo)))
  | publish {author : PeerId} {data : Bytes} {seqNo : UInt64} : author ∈ T.others →
      T.Steps s (.publish author data seqNo)
        { s with published := s.published ++
          [{ source := some author, data, sequenceNumber := some seqNo }] }
  | forward {c : Copy} : T.MaySend s c → T.Steps s (.forward c) { s with sent := s.sent ++ [c] }
  | deliver {c : Copy} : c ∈ s.sent →
      T.Steps s (.deliver c)
        (s.update c.receiver ((s.node c.receiver).receive c.receiver c.sender c.message))
  | pollStreamer {event : Gossipsub.Event} {rest : List Gossipsub.Event} :
      (s.node T.streamer).events = event :: rest →
      T.Steps s (.poll T.streamer)
        (s.update T.streamer ((s.node T.streamer).handleStreamer event rest))
  | pollListener {p : PeerId} {event : Gossipsub.Event} {rest : List Gossipsub.Event} :
      p ∈ T.listeners → (s.node p).events = event :: rest →
      T.Steps s (.poll p) (s.update p ((s.node p).handleListener T.streamer event rest))
  | mdns {p : PeerId} {event : MdnsEvent} :
      T.Steps s (.mdns p event)
        (s.update p { s.node p with gossipsub := processMdnsEvent (s.node p).gossipsub event })

/-- **Step inversion.**  An enabled action is one of the steps listed. -/
theorem Topology.steps_of_step {T : Topology} {s s' : Net} {a : NetAction}
    (hs : T.step s a = some s') : T.Steps s a s' := by
  cases a with
  | air msg seqNo =>
    simp only [step] at hs
    split at hs
    · cases hs
    next hunused =>
      split at hs
      · next hdup =>
        rw [← Option.some.inj hs]
        exact .airDuplicate hunused hdup
      · next hnew =>
        rw [← Option.some.inj hs]
        exact .air hunused hnew
  | publish author data seqNo =>
    simp only [step] at hs
    split at hs
    · next hauthor =>
      rw [← Option.some.inj hs]
      exact .publish hauthor
    · cases hs
  | forward c =>
    simp only [step] at hs
    split at hs
    · next hmay =>
      rw [← Option.some.inj hs]
      exact .forward hmay
    · cases hs
  | deliver c =>
    simp only [step] at hs
    split at hs
    · next hc =>
      rw [← Option.some.inj hs]
      exact .deliver hc.1
    · cases hs
  | poll p =>
    simp only [step] at hs
    split at hs
    · cases hs
    next hqueue =>
      split at hs
      · next hp =>
        subst hp
        rw [← Option.some.inj hs]
        exact .pollStreamer hqueue
      split at hs
      · next hp =>
        rw [← Option.some.inj hs]
        exact .pollListener hp hqueue
      · cases hs
  | mdns p event =>
    simp only [step] at hs
    split at hs
    · rw [← Option.some.inj hs]
      exact .mdns
    split at hs
    · rw [← Option.some.inj hs]
      exact .mdns
    · cases hs

/-! ## What one step does to one node -/

/-- Everything an action can do to the node `q` of the network `s`. -/
inductive Topology.NodeStep (T : Topology) (s : Net) (q : PeerId) : NetAction → Node → Prop
  | idle {a : NetAction} : T.NodeStep s q a (s.node q)
  | airDuplicate {msg : Message} {seqNo : UInt64} : q = T.streamer → seqNo ∉ s.usedNumbers →
      messageId (T.aired msg seqNo) ∈ (s.node q).gossipsub.duplicateCache →
      T.NodeStep s q (.air msg seqNo) ((s.node q).ignore (T.aired msg seqNo))
  | air {msg : Message} {seqNo : UInt64} : q = T.streamer → seqNo ∉ s.usedNumbers →
      messageId (T.aired msg seqNo) ∉ (s.node q).gossipsub.duplicateCache →
      T.NodeStep s q (.air msg seqNo) ((s.node q).accept q (T.aired msg seqNo))
  | deliver {c : Copy} : c ∈ s.sent → c.receiver = q →
      T.NodeStep s q (.deliver c) ((s.node q).receive q c.sender c.message)
  | pollStreamer {event : Gossipsub.Event} {rest : List Gossipsub.Event} : q = T.streamer →
      (s.node q).events = event :: rest →
      T.NodeStep s q (.poll q) ((s.node q).handleStreamer event rest)
  | pollListener {event : Gossipsub.Event} {rest : List Gossipsub.Event} : q ∈ T.listeners →
      (s.node q).events = event :: rest →
      T.NodeStep s q (.poll q) ((s.node q).handleListener T.streamer event rest)
  | mdns {event : MdnsEvent} :
      T.NodeStep s q (.mdns q event)
        { s.node q with gossipsub := processMdnsEvent (s.node q).gossipsub event }

lemma Net.update_node_self (s : Net) (p : PeerId) (n : Node) : (s.update p n).node p = n := by
  simp only [Net.update, Function.update_self]

lemma Net.update_node_of_ne {p q : PeerId} (h : q ≠ p) (s : Net) (n : Node) :
    (s.update p n).node q = s.node q := by
  simp only [Net.update, Function.update_of_ne h]

/-- Whatever step the network takes, each node stays as it is or does one of the things listed
in `NodeStep`. -/
theorem Topology.nodeStep {T : Topology} {s s' : Net} {a : NetAction}
    (hs : T.step s a = some s') (q : PeerId) : T.NodeStep s q a (s'.node q) := by
  -- A step that updates some other node leaves `q` idle.
  have hidle : ∀ {t : Net} {p : PeerId} {n : Node}, q ≠ p → t.node = s.node →
      T.NodeStep s q a ((t.update p n).node q) := by
    intro t p n hq ht
    rw [Net.update_node_of_ne hq, ht]
    exact .idle
  cases T.steps_of_step hs with
  | airDuplicate hunused hdup =>
    by_cases hq : q = T.streamer
    · subst hq
      rw [Net.update_node_self]
      exact .airDuplicate rfl hunused hdup
    · exact hidle hq rfl
  | air hunused hnew =>
    by_cases hq : q = T.streamer
    · subst hq
      rw [Net.update_node_self]
      exact .air rfl hunused hnew
    · exact hidle hq rfl
  | publish => exact .idle
  | forward => exact .idle
  | @deliver c hc =>
    by_cases hq : q = c.receiver
    · subst hq
      rw [Net.update_node_self]
      exact .deliver hc rfl
    · exact hidle hq rfl
  | pollStreamer hqueue =>
    by_cases hq : q = T.streamer
    · subst hq
      rw [Net.update_node_self]
      exact .pollStreamer rfl hqueue
    · exact hidle hq rfl
  | @pollListener p _ _ hp hqueue =>
    by_cases hq : q = p
    · subst hq
      rw [Net.update_node_self]
      exact .pollListener hp hqueue
    · exact hidle hq rfl
  | @mdns p event =>
    by_cases hq : q = p
    · subst hq
      rw [Net.update_node_self]
      exact .mdns
    · exact hidle hq rfl

/-! ## What is sent and accepted -/

/-- Copies are sent by `forward` only. -/
lemma Topology.mem_sent_step {T : Topology} {s s' : Net} {a : NetAction}
    (hs : T.step s a = some s') {c : Copy} (hc : c ∈ s'.sent) :
    c ∈ s.sent ∨ (a = .forward c ∧ T.MaySend s c) := by
  cases T.steps_of_step hs with
  | forward hmay =>
    rcases List.mem_append.mp hc with hc | hc
    · exact Or.inl hc
    · rw [List.mem_singleton.mp hc]
      exact Or.inr ⟨rfl, hmay⟩
  | _ => exact Or.inl hc

/-- No copy that was sent is forgotten. -/
lemma Topology.sent_subset_step {T : Topology} {s s' : Net} {a : NetAction}
    (hs : T.step s a = some s') : s.sent ⊆ s'.sent := by
  cases T.steps_of_step hs with
  | forward => exact List.subset_append_left _ _
  | _ => exact List.Subset.refl _

lemma Node.mem_accepted_receive {n : Node} {own source : PeerId} {m : Gossipsub.Message}
    {e : PeerId × Gossipsub.Message} (h : e ∈ (n.receive own source m).accepted) :
    e ∈ n.accepted ∨ e = (source, m) := by
  unfold Node.receive at h
  split at h
  · exact Or.inl h
  split at h
  · exact Or.inl h
  · rcases List.mem_append.mp h with h | h
    · exact Or.inl h
    · exact Or.inr (List.mem_singleton.mp h)

end P2PRadio
