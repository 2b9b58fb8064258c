import P2PRadio.Support.Progress
import P2PRadio.P2p.Network

/-!
# What the network remembers

A node drops a message whose id it has seen, as long as it remembers the id: gossipsub keeps ids
for `duplicate_cache_time`, one minute by default.  In `Topology.expiring` an id may expire from a
node's cache at any time, which leaves open how long a minute is; the network that remembers for
ever is one of its ways to go (`Topology.expiring_of_network`).

What holds in spite of that is `Topology.Recorded`: a node accepts an id at most once more than the
id has expired.  Where none expires the cache holds exactly the ids accepted, and none is
accepted twice (`Node.Sound`).
-/

namespace P2PRadio

open Transition

/-! ## Ids that expire -/

/-- An id leaves the cache of seen ids. -/
def Node.expire (n : Node) (id : Gossipsub.MessageId) : Node :=
  { n with
    gossipsub := { n.gossipsub with duplicateCache := n.gossipsub.duplicateCache.erase id }
    expired := n.expired ++ [id] }

inductive ExpiringAction where
  | net (a : NetAction)
  /-- The node has seen the id for long enough. -/
  | expire (p : PeerId) (id : Gossipsub.MessageId)

def Net.expire (s : Net) (p : PeerId) (id : Gossipsub.MessageId) : Option Net :=
  if id ∈ (s.node p).gossipsub.duplicateCache then some (s.update p ((s.node p).expire id))
  else none

def Topology.expiringStep (T : Topology) (s : Net) : ExpiringAction → Option Net
  | .net a => T.step s a
  | .expire p id => s.expire p id

/-- The network of a topology, with caches that forget. -/
def Topology.expiring (T : Topology) : System Net ExpiringAction where
  init := {}
  step := T.expiringStep

lemma Topology.simulates_expiring (T : Topology) : Simulates T.network T.expiring id where
  init := rfl
  step _ a _ hs := Or.inr ⟨.net a, hs⟩

lemma Topology.expiring_of_network {T : Topology} {s : Net} (h : T.network.Reachable s) :
    T.expiring.Reachable s :=
  T.simulates_expiring.reachable h

/-- When an id expires, one node forgets it, and nothing else changes. -/
lemma Net.eq_of_expire {s s' : Net} {p : PeerId} {id : Gossipsub.MessageId}
    (hs : s.expire p id = some s') : s' = s.update p ((s.node p).expire id) := by
  obtain ⟨-, hs⟩ := Option.ite_none_right_eq_some.mp hs
  exact (Option.some.inj hs).symm

/-- So what is true of a node whether or not it forgets the id is true of it afterwards. -/
lemma Net.node_of_expire {P : Node → Prop} {s s' : Net} {p : PeerId} {id : Gossipsub.MessageId}
    (hs : s.expire p id = some s') (q : PeerId) (h : P (s.node q))
    (hexpire : P ((s.node q).expire id)) : P (s'.node q) := by
  rw [Net.eq_of_expire hs]
  by_cases hq : q = p
  · subst hq
    rw [Net.update_node_self]
    exact hexpire
  · rw [Net.update_node_of_ne hq]
    exact h

lemma Net.accepted_of_expire {s s' : Net} {p : PeerId} {id : Gossipsub.MessageId}
    (hs : s.expire p id = some s') (q : PeerId) : (s'.node q).accepted = (s.node q).accepted :=
  Net.node_of_expire (P := fun n => n.accepted = (s.node q).accepted) hs q rfl rfl

/-! ## What one node keeps -/

/-- The bookkeeping of one node, relative to the messages published so far.  An id it has seen is
the id of a message it accepted, and it has accepted an id at most once more than it has forgotten
it. -/
structure Node.Recorded (published : List Gossipsub.Message) (n : Node) : Prop where
  accepted_published : ∀ e ∈ n.accepted, e.2 ∈ published
  cached_accepted : ∀ id ∈ n.gossipsub.duplicateCache, ∃ e ∈ n.accepted, messageId e.2 = id
  count_le : ∀ id, (n.accepted.map fun e => messageId e.2).count id ≤
    n.expired.count id + if id ∈ n.gossipsub.duplicateCache then 1 else 0
  events_accepted : ∀ source id m, .message source id m ∈ n.events → (source, m) ∈ n.accepted

namespace Node.Recorded

variable {published : List Gossipsub.Message} {n n' : Node}

lemma initial : Node.Recorded published {} where
  accepted_published := by simp
  cached_accepted := by simp
  count_le := by simp
  events_accepted := by simp

lemma mono {more : List Gossipsub.Message} (h : n.Recorded published) (hsub : published ⊆ more) :
    n.Recorded more where
  accepted_published e he := hsub (h.accepted_published e he)
  cached_accepted := h.cached_accepted
  count_le := h.count_le
  events_accepted := h.events_accepted

/-- Only the cache, what has expired from it, the accepted messages and the queue matter, and the
queue may lose events. -/
lemma congr (h : n.Recorded published) (haccepted : n'.accepted = n.accepted)
    (hcache : n'.gossipsub.duplicateCache = n.gossipsub.duplicateCache)
    (hexpired : n'.expired = n.expired) (hevents : n'.events ⊆ n.events) :
    n'.Recorded published where
  accepted_published := by rw [haccepted]; exact h.accepted_published
  cached_accepted := by rw [haccepted, hcache]; exact h.cached_accepted
  count_le := by rw [haccepted, hcache, hexpired]; exact h.count_le
  events_accepted source id m he := by
    rw [haccepted]
    exact h.events_accepted source id m (hevents he)

lemma accept (h : n.Recorded published) {source : PeerId} {m : Gossipsub.Message}
    (hm : m ∈ published) (hnew : messageId m ∉ n.gossipsub.duplicateCache) :
    (n.accept source m).Recorded published where
  accepted_published e he := by
    rcases List.mem_append.mp he with he | he
    · exact h.accepted_published e he
    · rw [List.mem_singleton.mp he]
      exact hm
  cached_accepted id hid := by
    rcases Finset.mem_insert.mp hid with rfl | hid
    · exact ⟨(source, m), List.mem_append_right _ (List.mem_singleton_self _), rfl⟩
    · obtain ⟨e, he, heq⟩ := h.cached_accepted id hid
      exact ⟨e, List.mem_append_left _ he, heq⟩
  count_le id := by
    have hold := h.count_le id
    simp only [Node.accept, List.map_append, List.map_cons, List.map_nil, List.count_append,
      List.count_singleton, beq_iff_eq, Finset.mem_insert]
    by_cases hid : messageId m = id
    · subst hid
      rw [if_neg hnew] at hold
      rw [if_pos rfl, if_pos (Or.inl rfl)]
      omega
    · have hne : ¬ id = messageId m := fun heq => hid heq.symm
      simp only [hid, hne, if_false, false_or]
      exact hold
  events_accepted source' id' m' he :=
    List.mem_append_left _ (h.events_accepted source' id' m' he)

/-- An id that expires may be accepted once more. -/
lemma expire (h : n.Recorded published) (id : Gossipsub.MessageId) :
    (n.expire id).Recorded published where
  accepted_published := h.accepted_published
  cached_accepted id' hid := h.cached_accepted id' (Finset.mem_of_mem_erase hid)
  count_le id' := by
    have hold := h.count_le id'
    simp only [Node.expire, List.count_append, List.count_singleton, beq_iff_eq,
      Finset.mem_erase]
    by_cases hid : id = id'
    · subst hid
      simp only [if_true, ne_eq, not_true_eq_false, false_and, if_false]
      split at hold <;> omega
    · have hne : id' ≠ id := fun heq => hid heq.symm
      simp only [hid, hne, if_false, ne_eq, not_false_eq_true, true_and]
      exact hold
  events_accepted := h.events_accepted

/-- The event raised for a message just accepted. -/
lemma raise (h : n.Recorded published) {source : PeerId} {m : Gossipsub.Message}
    (hm : (source, m) ∈ n.accepted) :
    Node.Recorded published
      { n with events := n.events ++ [.message source (messageId m) m] } where
  accepted_published := h.accepted_published
  cached_accepted := h.cached_accepted
  count_le := h.count_le
  events_accepted source' id' m' he := by
    rcases List.mem_append.mp he with he | he
    · exact h.events_accepted source' id' m' he
    · obtain ⟨rfl, -, rfl⟩ := Gossipsub.Event.message.inj (List.mem_singleton.mp he)
      exact hm

lemma receive (h : n.Recorded published) {own source : PeerId} {m : Gossipsub.Message}
    (hm : m ∈ published) : (n.receive own source m).Recorded published := by
  unfold Node.receive
  split
  · exact h
  split
  · exact h.congr rfl rfl rfl (List.Subset.refl _)
  · next hnew =>
    exact (h.accept hm hnew).raise (List.mem_append_right _ (List.mem_singleton_self _))

lemma handleListener (h : n.Recorded published) {streamer : PeerId} {event : Gossipsub.Event}
    {rest : List Gossipsub.Event} (hqueue : n.events = event :: rest) :
    (n.handleListener streamer event rest).Recorded published :=
  h.congr rfl (duplicateCache_processListenerEvent n.gossipsub streamer _) rfl
    (hqueue ▸ List.subset_cons_self event rest)

lemma handleStreamer (h : n.Recorded published) {event : Gossipsub.Event}
    {rest : List Gossipsub.Event} (hqueue : n.events = event :: rest) :
    (n.handleStreamer event rest).Recorded published :=
  h.congr rfl rfl rfl (hqueue ▸ List.subset_cons_self event rest)

/-- A known id belongs to an accepted message with the same sequence number. -/
lemma exists_same_number (h : n.Recorded published) {m : Gossipsub.Message}
    (hm : messageId m ∈ n.gossipsub.duplicateCache) :
    ∃ e ∈ n.accepted, e.2.sequenceNumber = m.sequenceNumber := by
  obtain ⟨e, he, hid⟩ := h.cached_accepted _ hm
  exact ⟨e, he, messageId_eq_iff.mp hid⟩

/-- A message is accepted at most once more than its id has expired. -/
lemma count_accepted_le (h : n.Recorded published) (m : Gossipsub.Message) :
    (n.accepted.map Prod.snd).count m ≤ n.expired.count (messageId m) + 1 := by
  have hids : (n.accepted.map Prod.snd).count m ≤
      (n.accepted.map fun e => messageId e.2).count (messageId m) := by
    have hle := List.count_le_count_map (f := messageId) (x := m) (l := n.accepted.map Prod.snd)
    rw [List.map_map] at hle
    exact hle
  have hle := h.count_le (messageId m)
  split at hle <;> omega

end Node.Recorded

/-- The bookkeeping of a node from whose cache no id has expired. -/
structure Node.Sound (published : List Gossipsub.Message) (n : Node) : Prop
    extends Node.Recorded published n where
  expired_eq : n.expired = []

namespace Node.Sound

variable {published : List Gossipsub.Message} {n : Node}

/-- No id is accepted twice. -/
lemma ids_nodup (h : n.Sound published) : (n.accepted.map fun e => messageId e.2).Nodup := by
  rw [List.nodup_iff_count_le_one]
  intro id
  have hle := h.count_le id
  rw [h.expired_eq, List.count_nil, Nat.zero_add] at hle
  split at hle <;> omega

/-- The cache holds exactly the ids of what was accepted. -/
lemma mem_cache_iff (h : n.Sound published) (id : Gossipsub.MessageId) :
    id ∈ n.gossipsub.duplicateCache ↔ ∃ e ∈ n.accepted, messageId e.2 = id := by
  refine ⟨h.cached_accepted id, ?_⟩
  rintro ⟨e, he, heq⟩
  have hpos : 0 < (n.accepted.map fun e => messageId e.2).count id :=
    List.count_pos_iff.mpr (List.mem_map.mpr ⟨e, he, heq⟩)
  by_contra hnot
  have hle := h.count_le id
  rw [h.expired_eq, List.count_nil, if_neg hnot] at hle
  omega

/-- A node that accepted two messages with one id accepted one message. -/
lemma eq_of_messageId_eq (h : n.Sound published) {e e' : PeerId × Gossipsub.Message}
    (he : e ∈ n.accepted) (he' : e' ∈ n.accepted) (hid : messageId e.2 = messageId e'.2) :
    e = e' :=
  List.inj_on_of_nodup_map h.ids_nodup he he' hid

end Node.Sound

/-! ## What the network keeps -/

/-- The bookkeeping of the network: everything published is signed and numbered, the
streamer's numbers are fresh, only published messages travel, and every node keeps its own. -/
structure Topology.Recorded (T : Topology) (s : Net) : Prop where
  signed : ∀ m ∈ s.published, m.source.isSome ∧ m.sequenceNumber.isSome
  streamer_used : ∀ m ∈ s.published, m.source = some T.streamer →
    ∃ seqNo ∈ s.usedNumbers, m.sequenceNumber = some seqNo
  streamer_unique : ∀ m ∈ s.published, ∀ m' ∈ s.published, m.source = some T.streamer →
    m'.source = some T.streamer → m.sequenceNumber = m'.sequenceNumber → m = m'
  sent_published : ∀ c ∈ s.sent, c.message ∈ s.published
  node_recorded : ∀ p, (s.node p).Recorded s.published

namespace Topology.Recorded

variable {T : Topology} {s s' : Net}

lemma initial : T.Recorded {} where
  signed := by simp
  streamer_used := by simp
  streamer_unique := by simp
  sent_published := by simp
  node_recorded _ := Node.Recorded.initial

lemma update (h : T.Recorded s) {p : PeerId} {n : Node} (hn : n.Recorded s.published) :
    T.Recorded (s.update p n) where
  signed := h.signed
  streamer_used := h.streamer_used
  streamer_unique := h.streamer_unique
  sent_published := h.sent_published
  node_recorded q := by
    by_cases hq : q = p
    · subst hq
      simpa only [Net.update, Function.update_self] using hn
    · simpa only [Net.update, Function.update_of_ne hq] using h.node_recorded q

/-- A number used by the streamer stays used. -/
lemma useNumber (h : T.Recorded s) (seqNo : UInt64) :
    T.Recorded { s with usedNumbers := s.usedNumbers ++ [seqNo] } where
  signed := h.signed
  streamer_used m hm hsource := by
    obtain ⟨k, hk, hmk⟩ := h.streamer_used m hm hsource
    exact ⟨k, List.mem_append_left _ hk, hmk⟩
  streamer_unique := h.streamer_unique
  sent_published := h.sent_published
  node_recorded := h.node_recorded

/-- Publishing one more message: signed and numbered, and, if it is the streamer's, under a
number it has used for nothing published before. -/
lemma publish (h : T.Recorded s) {m : Gossipsub.Message}
    (hsigned : m.source.isSome ∧ m.sequenceNumber.isSome)
    (hused : m.source = some T.streamer → ∃ seqNo ∈ s.usedNumbers, m.sequenceNumber = some seqNo)
    (hfresh : m.source = some T.streamer → ∀ m' ∈ s.published, m'.source = some T.streamer →
      m'.sequenceNumber ≠ m.sequenceNumber) :
    T.Recorded { s with published := s.published ++ [m] } where
  signed m' hm' := by
    rcases List.mem_append.mp hm' with hm' | hm'
    · exact h.signed m' hm'
    · rw [List.mem_singleton.mp hm']
      exact hsigned
  streamer_used m' hm' hsource := by
    rcases List.mem_append.mp hm' with hm' | hm'
    · exact h.streamer_used m' hm' hsource
    · rw [List.mem_singleton.mp hm'] at hsource ⊢
      exact hused hsource
  streamer_unique m₁ h₁ m₂ h₂ hs₁ hs₂ hseq := by
    rcases List.mem_append.mp h₁ with h₁ | h₁ <;> rcases List.mem_append.mp h₂ with h₂ | h₂
    · exact h.streamer_unique m₁ h₁ m₂ h₂ hs₁ hs₂ hseq
    · rw [List.mem_singleton.mp h₂] at hs₂ hseq
      exact absurd hseq (hfresh hs₂ m₁ h₁ hs₁)
    · rw [List.mem_singleton.mp h₁] at hs₁ hseq
      exact absurd hseq.symm (hfresh hs₁ m₂ h₂ hs₂)
    · rw [List.mem_singleton.mp h₁, List.mem_singleton.mp h₂]
  sent_published c hc := List.mem_append_left _ (h.sent_published c hc)
  node_recorded p := (h.node_recorded p).mono (List.subset_append_left _ _)

/-- Every step keeps the bookkeeping. -/
theorem step {a : NetAction} (h : T.Recorded s) (hs : T.step s a = some s') : T.Recorded s' := by
  cases T.steps_of_step hs with
  | airDuplicate hunused hdup =>
    exact (h.useNumber _).update
      ((h.node_recorded T.streamer).congr rfl rfl rfl (List.Subset.refl _))
  | @air msg seqNo hunused hnew =>
    -- The message is published first, then taken by the streamer's own gossipsub.
    have hpub := (h.useNumber seqNo).publish (m := T.aired msg seqNo) ⟨rfl, rfl⟩
      (fun _ => ⟨seqNo, List.mem_append_right _ (List.mem_singleton_self _), rfl⟩)
      (fun _ m' hm' hsource hseq => by
        obtain ⟨k, hk, hmk⟩ := h.streamer_used m' hm' hsource
        rw [hmk] at hseq
        obtain rfl : k = seqNo := Option.some.inj hseq
        exact hunused hk)
    exact hpub.update ((hpub.node_recorded T.streamer).accept
      (List.mem_append_right _ (List.mem_singleton_self _)) hnew)
  | publish hauthor =>
    have hne : _ ≠ T.streamer := fun heq => T.streamer_notMem_others (heq ▸ hauthor)
    exact h.publish ⟨rfl, rfl⟩ (fun hsource => absurd (Option.some.inj hsource) hne)
      (fun hsource => absurd (Option.some.inj hsource) hne)
  | @forward c hmay =>
    have hpub : c.message ∈ s.published := by
      rcases hmay with ⟨-, ⟨e, he, hm, -⟩, -⟩ | ⟨-, hm⟩
      · exact hm ▸ (h.node_recorded c.sender).accepted_published e he
      · exact hm
    refine ⟨h.signed, h.streamer_used, h.streamer_unique, fun c' hc' => ?_, h.node_recorded⟩
    rcases List.mem_append.mp hc' with hc' | hc'
    · exact h.sent_published c' hc'
    · rw [List.mem_singleton.mp hc']
      exact hpub
  | deliver hc => exact h.update ((h.node_recorded _).receive (h.sent_published _ hc))
  | pollStreamer hqueue => exact h.update ((h.node_recorded _).handleStreamer hqueue)
  | pollListener _ hqueue => exact h.update ((h.node_recorded _).handleListener hqueue)
  | mdns =>
    exact h.update ((h.node_recorded _).congr rfl (duplicateCache_processMdnsEvent _ _) rfl
      (List.Subset.refl _))

/-- So does an id that expires. -/
lemma expire (h : T.Recorded s) {p : PeerId} {id : Gossipsub.MessageId}
    (hs : s.expire p id = some s') : T.Recorded s' := by
  rw [Net.eq_of_expire hs]
  exact h.update ((h.node_recorded p).expire id)

lemma of_reachable (h : T.expiring.Reachable s) : T.Recorded s := by
  refine h.invariant initial (fun t a t' _ ht hs => ?_)
  cases a with
  | net a => exact ht.step hs
  | expire p id => exact ht.expire hs

end Topology.Recorded

/-- The same where no id has expired. -/
structure Topology.Sound (T : Topology) (s : Net) : Prop extends Topology.Recorded T s where
  expired_eq : ∀ p, (s.node p).expired = []

namespace Topology.Sound

variable {T : Topology} {s s' : Net}

lemma node_sound (h : T.Sound s) (p : PeerId) : (s.node p).Sound s.published :=
  ⟨h.node_recorded p, h.expired_eq p⟩

lemma initial : T.Sound {} := ⟨.initial, fun _ => rfl⟩

/-- No step of the network makes an id expire. -/
lemma expired_step {a : NetAction} (hs : T.step s a = some s') (p : PeerId) :
    (s'.node p).expired = (s.node p).expired := by
  have hnode := T.nodeStep hs p
  revert hnode
  generalize s'.node p = n'
  intro hnode
  cases hnode with
  | deliver =>
    unfold Node.receive
    split
    · rfl
    split <;> rfl
  | _ => rfl

lemma of_reachable (h : T.network.Reachable s) : T.Sound s where
  toRecorded := .of_reachable (T.expiring_of_network h)
  expired_eq := by
    refine h.invariant (P := fun t : Net => ∀ p, (t.node p).expired = []) (fun _ => rfl) ?_
    intro t a t' _ ih hs p
    rw [expired_step hs p]
    exact ih p

end Topology.Sound

/-! ## Where accepted messages came from -/

/-- What a listener accepted was sent to it by the neighbour it is said to come from. -/
lemma Topology.accepted_sent {T : Topology} {s : Net} (hr : T.expiring.Reachable s) :
    ∀ q ∈ T.listeners, ∀ e ∈ (s.node q).accepted,
      { sender := e.1, receiver := q, message := e.2 } ∈ s.sent := by
  refine hr.invariant (P := fun s => ∀ q ∈ T.listeners, ∀ e ∈ (s.node q).accepted,
    { sender := e.1, receiver := q, message := e.2 } ∈ s.sent) (by simp [Topology.expiring]) ?_
  intro s a s' _ ih hstep q hq
  cases a with
  | expire p id =>
    have hsent : s'.sent = s.sent := by
      rw [Net.eq_of_expire hstep]
      rfl
    rw [hsent]
    rw [Net.accepted_of_expire hstep q]
    exact ih q hq
  | net a =>
    intro e he
    have hs : T.step s a = some s' := hstep
    have hne : q ≠ T.streamer := fun heq => T.streamer_notMem_listeners (heq ▸ hq)
    have hold : e ∈ (s.node q).accepted → _ := fun he => T.sent_subset_step hs (ih q hq e he)
    have hnode := T.nodeStep hs q
    revert he hnode
    generalize s'.node q = n'
    intro he hnode
    cases hnode with
    | airDuplicate hstreamer => exact absurd hstreamer hne
    | air hstreamer => exact absurd hstreamer hne
    | pollStreamer hstreamer => exact absurd hstreamer hne
    | deliver hc hreceiver =>
      rcases Node.mem_accepted_receive he with he | rfl
      · exact hold he
      · subst hreceiver
        exact T.sent_subset_step hs hc
    | _ => exact hold he

end P2PRadio
