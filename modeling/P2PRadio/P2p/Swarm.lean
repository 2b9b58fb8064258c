import Mathlib.Algebra.Group.Nat.Defs
import Mathlib.Data.Finset.Basic
import P2PRadio.P2p.Codec

/-!
# The swarm's event handlers

The part of `src/p2p/swarm.rs` that both kinds of node run: how a gossipsub message gets its
id, and what a node does with each event its swarm reports.

libp2p itself is not part of the repository.  `Gossipsub.Behaviour` keeps what the handlers
and the results about them need of it: the explicit peers, the blacklist, and the cache of
ids already seen.  Its operations are the documented ones; `addExplicitPeer` and
`removeExplicitPeer` do not consult the blacklist, `blacklistPeer` only adds to it.

`processGossipSubEvent` ends by sending at most one decoded message on `gossip_sub_tx`.  The
model returns that message instead of sending it, so that each system built on the handler
can give the channel the behaviour it needs: an open channel (`P2p/Network.lean`) or one that
blocks when it is full (`Relay/Pipeline.lean`).

Every node subscribes to one topic, so topics are left out.  Log lines are left out too.
-/

namespace P2PRadio

/-- A libp2p peer id, the multihash of the peer's public key. -/
structure PeerId where
  multihash : Bytes
  deriving DecidableEq, Repr

/-- A network address.  No handler looks inside one. -/
structure Multiaddr where
  bytes : Bytes
  deriving DecidableEq, Repr

namespace Gossipsub

structure MessageId where
  bytes : Bytes
  deriving DecidableEq, Repr

/-- `gossipsub::Message`: `source` is the verified author. -/
structure Message where
  source : Option PeerId
  data : Bytes
  sequenceNumber : Option UInt64
  deriving DecidableEq, Repr

/-- `gossipsub::Event`; `propagationSource` is the neighbour this copy came from.  The other
events are `other`, as in the handler. -/
inductive Event where
  | message (propagationSource : PeerId) (messageId : MessageId) (message : Message)
  | other
  deriving DecidableEq, Repr

/-- What the handlers use of `gossipsub::Behaviour`. -/
structure Behaviour where
  explicitPeers : Finset PeerId := ∅
  blacklistedPeers : Finset PeerId := ∅
  duplicateCache : Finset MessageId := ∅

namespace Behaviour

def addExplicitPeer (b : Behaviour) (peerId : PeerId) : Behaviour :=
  { b with explicitPeers := insert peerId b.explicitPeers }

def removeExplicitPeer (b : Behaviour) (peerId : PeerId) : Behaviour :=
  { b with explicitPeers := b.explicitPeers.erase peerId }

def blacklistPeer (b : Behaviour) (peerId : PeerId) : Behaviour :=
  { b with blacklistedPeers := insert peerId b.blacklistedPeers }

variable (b : Behaviour) (p : PeerId)

@[simp] lemma explicitPeers_addExplicitPeer :
    (b.addExplicitPeer p).explicitPeers = insert p b.explicitPeers := rfl

@[simp] lemma blacklistedPeers_addExplicitPeer :
    (b.addExplicitPeer p).blacklistedPeers = b.blacklistedPeers := rfl

@[simp] lemma duplicateCache_addExplicitPeer :
    (b.addExplicitPeer p).duplicateCache = b.duplicateCache := rfl

@[simp] lemma explicitPeers_removeExplicitPeer :
    (b.removeExplicitPeer p).explicitPeers = b.explicitPeers.erase p := rfl

@[simp] lemma blacklistedPeers_removeExplicitPeer :
    (b.removeExplicitPeer p).blacklistedPeers = b.blacklistedPeers := rfl

@[simp] lemma duplicateCache_removeExplicitPeer :
    (b.removeExplicitPeer p).duplicateCache = b.duplicateCache := rfl

@[simp] lemma explicitPeers_blacklistPeer :
    (b.blacklistPeer p).explicitPeers = b.explicitPeers := rfl

@[simp] lemma blacklistedPeers_blacklistPeer :
    (b.blacklistPeer p).blacklistedPeers = insert p b.blacklistedPeers := rfl

end Behaviour

end Gossipsub

/-! ## Message ids -/

/-- `u64::to_be_bytes` -/
def toBeBytes (n : UInt64) : Bytes :=
  [56, 48, 40, 32, 24, 16, 8, 0].map fun shift => UInt8.ofNat (n.toNat / 2 ^ shift)

/-- Numbers that agree in a byte and above it agree from that byte on. -/
lemma div_two_pow_eq_of_byte_eq {m n shift : ℕ}
    (hbyte : UInt8.ofNat (m / 2 ^ shift) = UInt8.ofNat (n / 2 ^ shift))
    (habove : m / 2 ^ (shift + 8) = n / 2 ^ (shift + 8)) :
    m / 2 ^ shift = n / 2 ^ shift := by
  have hmod := congrArg UInt8.toNat hbyte
  rw [UInt8.toNat_ofNat', UInt8.toNat_ofNat'] at hmod
  rw [Nat.pow_add, ← Nat.div_div_eq_div_mul, ← Nat.div_div_eq_div_mul] at habove
  omega

lemma toBeBytes_injective : Function.Injective toBeBytes := by
  intro m n h
  simp only [toBeBytes, List.map_cons, List.map_nil, List.cons.injEq, and_true] at h
  obtain ⟨h56, h48, h40, h32, h24, h16, h8, h0⟩ := h
  have habove : m.toNat / 2 ^ 64 = n.toNat / 2 ^ 64 := by
    rw [Nat.div_eq_of_lt m.toNat_lt, Nat.div_eq_of_lt n.toNat_lt]
  -- from the most significant byte, which comes first, down
  have heq56 := div_two_pow_eq_of_byte_eq h56 habove
  have heq48 := div_two_pow_eq_of_byte_eq h48 heq56
  have heq40 := div_two_pow_eq_of_byte_eq h40 heq48
  have heq32 := div_two_pow_eq_of_byte_eq h32 heq40
  have heq24 := div_two_pow_eq_of_byte_eq h24 heq32
  have heq16 := div_two_pow_eq_of_byte_eq h16 heq24
  have heq8 := div_two_pow_eq_of_byte_eq h8 heq16
  have heq := div_two_pow_eq_of_byte_eq h0 heq8
  rw [Nat.pow_zero, Nat.div_one, Nat.div_one] at heq
  exact UInt64.toNat_inj.mp heq

/-- The message id function of `init_swarm`: the sequence number alone. -/
def messageId (msg : Gossipsub.Message) : Gossipsub.MessageId :=
  match msg.sequenceNumber with
  | none => { bytes := [] }
  | some seqNo => { bytes := toBeBytes seqNo }

/-- Two messages share an id exactly when they share a sequence number; the author does not
enter. -/
lemma messageId_eq_iff {m m' : Gossipsub.Message} :
    messageId m = messageId m' ↔ m.sequenceNumber = m'.sequenceNumber := by
  unfold messageId
  cases hm : m.sequenceNumber with
  | none =>
    cases hm' : m'.sequenceNumber with
    | none => simp
    | some n' => simp [toBeBytes]
  | some n =>
    cases hm' : m'.sequenceNumber with
    | none => simp [toBeBytes]
    | some n' => simp [toBeBytes_injective.eq_iff]

/-! ## The handlers -/

/-- `mdns::Event` -/
inductive MdnsEvent where
  | discovered (list : List (PeerId × Multiaddr))
  | expired (list : List (PeerId × Multiaddr))
  deriving DecidableEq, Repr

/-- The events of the composed behaviour; those of identify, ping and kademlia are `other`. -/
inductive RadioBehaviorEvent where
  | mdns (event : MdnsEvent)
  | gossipsub (event : Gossipsub.Event)
  | other
  deriving DecidableEq, Repr

inductive SwarmEvent where
  | behaviour (event : RadioBehaviorEvent)
  | other
  deriving DecidableEq, Repr

open Gossipsub (Behaviour)

def processMdnsEvent (gossipsub : Behaviour) : MdnsEvent → Behaviour
  | .discovered list => list.foldl (fun g entry => g.addExplicitPeer entry.1) gossipsub
  | .expired list => list.foldl (fun g entry => g.removeExplicitPeer entry.1) gossipsub

/-- The behaviour after the event, and the message handed to `gossip_sub_tx`, if any. -/
def processGossipSubEvent (gossipsub : Behaviour) (event : Gossipsub.Event)
    (streamerPeerId : PeerId) : Behaviour × Option Message :=
  match event with
  | .message propagationSource _messageId message =>
    if propagationSource ≠ streamerPeerId then
      ((gossipsub.blacklistPeer propagationSource).removeExplicitPeer propagationSource, none)
    else
      match message.sequenceNumber with
      | none => (gossipsub, none)
      | some _seqNo =>
        match Message.decode message.data with
        | some (.ok msg) => (gossipsub, some msg)
        -- The failed decoding; `codec_exact` rules out the panic, which is `none`.
        | _ => (gossipsub, none)
  | .other => (gossipsub, none)

def processListenerBehaviorEvent (gossipsub : Behaviour) (streamerPeerId : PeerId) :
    RadioBehaviorEvent → Behaviour × Option Message
  | .mdns mdnsEvent => (processMdnsEvent gossipsub mdnsEvent, none)
  | .gossipsub gossipSubEvent => processGossipSubEvent gossipsub gossipSubEvent streamerPeerId
  | .other => (gossipsub, none)

def processListenerEvent (gossipsub : Behaviour) (streamerPeerId : PeerId) :
    SwarmEvent → Behaviour × Option Message
  | .behaviour event => processListenerBehaviorEvent gossipsub streamerPeerId event
  | .other => (gossipsub, none)

/-- A streamer looks at no gossipsub event. -/
def processStreamerBehaviorEvent (gossipsub : Behaviour) : RadioBehaviorEvent → Behaviour
  | .mdns mdnsEvent => processMdnsEvent gossipsub mdnsEvent
  | _ => gossipsub

def processStreamerEvent (gossipsub : Behaviour) : SwarmEvent → Behaviour
  | .behaviour event => processStreamerBehaviorEvent gossipsub event
  | .other => gossipsub

/-! ## What the mDNS handler does -/

lemma mem_explicitPeers_discovered {b : Behaviour} {list : List (PeerId × Multiaddr)}
    {p : PeerId} :
    p ∈ (processMdnsEvent b (.discovered list)).explicitPeers ↔
      p ∈ b.explicitPeers ∨ p ∈ list.map Prod.fst := by
  simp only [processMdnsEvent]
  induction list generalizing b with
  | nil => simp
  | cons entry list ih =>
    rw [List.foldl_cons, ih]
    simp only [Behaviour.explicitPeers_addExplicitPeer, Finset.mem_insert, List.map_cons,
      List.mem_cons]
    tauto

lemma mem_explicitPeers_expired {b : Behaviour} {list : List (PeerId × Multiaddr)}
    {p : PeerId} :
    p ∈ (processMdnsEvent b (.expired list)).explicitPeers ↔
      p ∈ b.explicitPeers ∧ p ∉ list.map Prod.fst := by
  simp only [processMdnsEvent]
  induction list generalizing b with
  | nil => simp
  | cons entry list ih =>
    rw [List.foldl_cons, ih]
    simp only [Behaviour.explicitPeers_removeExplicitPeer, Finset.mem_erase, List.map_cons,
      List.mem_cons, not_or]
    tauto

/-- The handler leaves alone what adding and removing explicit peers does. -/
lemma processMdnsEvent_preserves {β : Type} {f : Behaviour → β}
    (hadd : ∀ b p, f (b.addExplicitPeer p) = f b)
    (hremove : ∀ b p, f (b.removeExplicitPeer p) = f b) (b : Behaviour) (event : MdnsEvent) :
    f (processMdnsEvent b event) = f b := by
  cases event with
  | discovered list =>
    induction list generalizing b with
    | nil => rfl
    | cons entry list ih => exact (ih (b.addExplicitPeer entry.1)).trans (hadd b entry.1)
  | expired list =>
    induction list generalizing b with
    | nil => rfl
    | cons entry list ih => exact (ih (b.removeExplicitPeer entry.1)).trans (hremove b entry.1)

@[simp] lemma blacklistedPeers_processMdnsEvent (b : Behaviour) (event : MdnsEvent) :
    (processMdnsEvent b event).blacklistedPeers = b.blacklistedPeers :=
  processMdnsEvent_preserves Behaviour.blacklistedPeers_addExplicitPeer
    Behaviour.blacklistedPeers_removeExplicitPeer b event

@[simp] lemma duplicateCache_processMdnsEvent (b : Behaviour) (event : MdnsEvent) :
    (processMdnsEvent b event).duplicateCache = b.duplicateCache :=
  processMdnsEvent_preserves Behaviour.duplicateCache_addExplicitPeer
    Behaviour.duplicateCache_removeExplicitPeer b event

/-! ## What the gossipsub handler does -/

/-- A copy that came from any neighbour but the streamer costs that neighbour its place,
whoever wrote the message. -/
lemma processGossipSubEvent_of_ne {source streamer : PeerId} (h : source ≠ streamer)
    (b : Behaviour) (id : Gossipsub.MessageId) (m : Gossipsub.Message) :
    processGossipSubEvent b (.message source id m) streamer =
      ((b.blacklistPeer source).removeExplicitPeer source, none) := by
  simp only [processGossipSubEvent, if_pos h]

/-- A copy that came from the streamer leaves the peers alone. -/
lemma processGossipSubEvent_streamer_fst (b : Behaviour) (id : Gossipsub.MessageId)
    (m : Gossipsub.Message) (streamer : PeerId) :
    (processGossipSubEvent b (.message streamer id m) streamer).1 = b := by
  simp only [processGossipSubEvent, ne_eq, not_true_eq_false, if_false]
  split
  · rfl
  · split <;> rfl

/-- A copy that came from the streamer is handed on exactly when it has a sequence number and
decodes. -/
lemma processGossipSubEvent_streamer_snd (b : Behaviour) (id : Gossipsub.MessageId)
    (m : Gossipsub.Message) (streamer : PeerId) (msg : Message) :
    (processGossipSubEvent b (.message streamer id m) streamer).2 = some msg ↔
      m.sequenceNumber.isSome ∧ Message.decode m.data = some (.ok msg) := by
  simp only [processGossipSubEvent, ne_eq, not_true_eq_false, if_false]
  cases m.sequenceNumber with
  | none => simp
  | some n =>
    rcases Message.decode m.data with _ | _ | msg' <;> simp

/-- What a message carries, if it decodes. -/
def contentOf (m : Gossipsub.Message) : Option Message :=
  match Message.decode m.data with
  | some (.ok msg) => some msg
  | _ => none

lemma contentOf_eq_some_iff {m : Gossipsub.Message} {msg : Message} :
    contentOf m = some msg ↔ Message.decode m.data = some (.ok msg) := by
  unfold contentOf
  split
  · next msg' hdec => rw [hdec, Option.some.injEq, Option.some.injEq, Except.ok.injEq]
  · next hdec => exact ⟨nofun, fun h => absurd h (hdec msg)⟩

/-- A numbered message that came from the streamer is handed on as what it carries. -/
lemma processGossipSubEvent_eq_contentOf (b : Behaviour) (id : Gossipsub.MessageId)
    {m : Gossipsub.Message} (streamer : PeerId) (hnum : m.sequenceNumber.isSome) :
    (processGossipSubEvent b (.message streamer id m) streamer).2 = contentOf m := by
  apply Option.ext
  intro msg
  rw [processGossipSubEvent_streamer_snd, contentOf_eq_some_iff]
  exact and_iff_right hnum

@[simp] lemma duplicateCache_processGossipSubEvent (b : Behaviour) (event : Gossipsub.Event)
    (streamer : PeerId) :
    (processGossipSubEvent b event streamer).1.duplicateCache = b.duplicateCache := by
  cases event with
  | other => rfl
  | message source id m =>
    by_cases h : source = streamer
    · rw [h, processGossipSubEvent_streamer_fst]
    · rw [processGossipSubEvent_of_ne h]
      rfl

@[simp] lemma duplicateCache_processListenerEvent (b : Behaviour) (streamer : PeerId)
    (event : SwarmEvent) :
    (processListenerEvent b streamer event).1.duplicateCache = b.duplicateCache := by
  rcases event with (event | event | _) | _
  · exact duplicateCache_processMdnsEvent b event
  · exact duplicateCache_processGossipSubEvent b event streamer
  · rfl
  · rfl

end P2PRadio
