import P2PRadio.Support.Progress
import P2PRadio.P2p.Duplicates

/-!
# What a listener does with what it accepts

Gossipsub raises one event for each message it accepts, and the swarm loop handles the events
one at a time, in order.  So at any moment what a listener accepted is what it has handled
followed by what still waits, and its output, its blacklist and the peers it removed are
functions of what it has handled (`Node.Listens`).

From this: a listener handles what it accepts once and in order (`listener_handles_in_order`),
no message ever makes it blacklist the streamer (`streamer_never_silenced`), a peer it has
blacklisted is never heard again (`blacklisted_peers_stay_silent`), and what it hands on is, byte
for byte, what was published (`heard_as_published`).  All of this is over the network in which
the ids that a node has seen expire.
-/

namespace P2PRadio

open Transition

/-! ## One accepted message -/

/-- The event gossipsub raises for a message it accepts. -/
def raised (e : PeerId × Gossipsub.Message) : Gossipsub.Event :=
  .message e.1 (messageId e.2) e.2

/-- What a listener hands on of an accepted message: its content, if the streamer sent it and
it decodes. -/
def handsOn (streamer : PeerId) (e : PeerId × Gossipsub.Message) :
    List (Gossipsub.Message × Message) :=
  if e.1 = streamer then ((contentOf e.2).map (Prod.mk e.2)).toList else []

lemma mem_handsOn {streamer : PeerId} {e : PeerId × Gossipsub.Message}
    {h : Gossipsub.Message × Message} :
    h ∈ handsOn streamer e ↔ e = (streamer, h.1) ∧ contentOf h.1 = some h.2 := by
  obtain ⟨source, m⟩ := e
  obtain ⟨m', msg'⟩ := h
  unfold handsOn
  by_cases hsource : source = streamer
  · rw [if_pos hsource, Option.mem_toList, Option.map_eq_some_iff]
    simp only [Prod.mk.injEq]
    constructor
    · rintro ⟨msg, hcontent, rfl, rfl⟩
      exact ⟨⟨hsource, rfl⟩, hcontent⟩
    · rintro ⟨⟨-, rfl⟩, hcontent⟩
      exact ⟨msg', hcontent, rfl, rfl⟩
  · simp only [if_neg hsource, List.not_mem_nil, Prod.mk.injEq, false_iff]
    rintro ⟨⟨heq, -⟩, -⟩
    exact hsource heq

/-- An accepted message is handed on at most once, as itself. -/
lemma map_fst_handsOn_sublist (streamer : PeerId) (e : PeerId × Gossipsub.Message) :
    ((handsOn streamer e).map Prod.fst).Sublist [e.2] := by
  unfold handsOn
  split
  · cases contentOf e.2 with
    | none => exact List.nil_sublist _
    | some msg => exact List.Sublist.refl _
  · exact List.nil_sublist _

/-- The handler hands on what `handsOn` says, for a message with a sequence number. -/
lemma handedOn_raised (b : Gossipsub.Behaviour) (streamer : PeerId)
    {e : PeerId × Gossipsub.Message} (hnum : e.2.sequenceNumber.isSome) :
    handedOn (raised e) (processGossipSubEvent b (raised e) streamer).2 = handsOn streamer e := by
  obtain ⟨source, m⟩ := e
  unfold handsOn raised
  by_cases hsource : source = streamer
  · subst hsource
    rw [processGossipSubEvent_eq_contentOf b (messageId m) source hnum, if_pos rfl]
    cases contentOf m with
    | none => rfl
    | some msg => rfl
  · rw [processGossipSubEvent_of_ne hsource, if_neg hsource]
    rfl

/-- The neighbour an accepted message came from is blacklisted by handling it, unless it is the
streamer. -/
lemma blacklistedPeers_raised (b : Gossipsub.Behaviour) (streamer : PeerId)
    (e : PeerId × Gossipsub.Message) (p : PeerId) :
    p ∈ (processGossipSubEvent b (raised e) streamer).1.blacklistedPeers ↔
      p ∈ b.blacklistedPeers ∨ (p ≠ streamer ∧ e.1 = p) := by
  obtain ⟨source, m⟩ := e
  unfold raised
  by_cases hsource : source = streamer
  · subst hsource
    rw [processGossipSubEvent_streamer_fst]
    constructor
    · exact Or.inl
    · rintro (hp | ⟨hne, heq⟩)
      · exact hp
      · exact absurd heq.symm hne
  · rw [processGossipSubEvent_of_ne hsource]
    simp only [Gossipsub.Behaviour.blacklistedPeers_removeExplicitPeer,
      Gossipsub.Behaviour.blacklistedPeers_blacklistPeer, Finset.mem_insert]
    constructor
    · rintro (rfl | hp)
      · exact Or.inr ⟨hsource, rfl⟩
      · exact Or.inl hp
    · rintro (hp | ⟨-, rfl⟩)
      · exact Or.inr hp
      · exact Or.inl rfl

lemma subset_blacklistedPeers_processGossipSubEvent (b : Gossipsub.Behaviour)
    (event : Gossipsub.Event) (streamer : PeerId) :
    b.blacklistedPeers ⊆ (processGossipSubEvent b event streamer).1.blacklistedPeers := by
  cases event with
  | other => exact Finset.Subset.refl _
  | message source id m =>
    by_cases hsource : source = streamer
    · rw [hsource, processGossipSubEvent_streamer_fst]
    · rw [processGossipSubEvent_of_ne hsource]
      exact Finset.subset_insert _ _

/-- The handler removes no explicit peer that it does not blacklist. -/
lemma removed_raised_subset (b : Gossipsub.Behaviour) (streamer : PeerId)
    (e : PeerId × Gossipsub.Message) :
    b.explicitPeers \ (processGossipSubEvent b (raised e) streamer).1.explicitPeers ⊆
      (processGossipSubEvent b (raised e) streamer).1.blacklistedPeers := by
  obtain ⟨source, m⟩ := e
  unfold raised
  by_cases hsource : source = streamer
  · subst hsource
    rw [processGossipSubEvent_streamer_fst, Finset.sdiff_self]
    exact Finset.empty_subset _
  · rw [processGossipSubEvent_of_ne hsource]
    intro p hp
    simp only [Gossipsub.Behaviour.explicitPeers_removeExplicitPeer,
      Gossipsub.Behaviour.explicitPeers_blacklistPeer, Finset.mem_sdiff, Finset.mem_erase,
      not_and_or, not_not] at hp
    rcases hp with ⟨hmem, rfl | hnot⟩
    · exact Finset.mem_insert_self _ _
    · exact absurd hmem hnot

/-- The handler leaves the streamer among the explicit peers, or out. -/
lemma streamer_mem_explicitPeers_processGossipSubEvent (b : Gossipsub.Behaviour)
    (event : Gossipsub.Event) (streamer : PeerId) :
    streamer ∈ (processGossipSubEvent b event streamer).1.explicitPeers ↔
      streamer ∈ b.explicitPeers := by
  cases event with
  | other => exact Iff.rfl
  | message source id m =>
    by_cases hsource : source = streamer
    · rw [hsource, processGossipSubEvent_streamer_fst]
    · rw [processGossipSubEvent_of_ne hsource]
      simp only [Gossipsub.Behaviour.explicitPeers_removeExplicitPeer,
        Gossipsub.Behaviour.explicitPeers_blacklistPeer, Finset.mem_erase]
      exact and_iff_right (Ne.symm hsource)

/-! ## What a listener keeps -/

/-- A listener that has handled the accepted messages `handled`, in this order, while the
events of `waiting` are queued. -/
structure Node.Listens (streamer : PeerId) (n : Node)
    (handled waiting : List (PeerId × Gossipsub.Message)) : Prop where
  accepted_eq : n.accepted = handled ++ waiting
  events_eq : n.events = waiting.map raised
  handed_eq : n.handed = handled.flatMap (handsOn streamer)
  mem_blacklisted : ∀ p, p ∈ n.gossipsub.blacklistedPeers ↔
    p ≠ streamer ∧ ∃ e ∈ handled, e.1 = p
  removed_subset : n.removed ⊆ n.gossipsub.blacklistedPeers

namespace Node.Listens

variable {streamer : PeerId} {n : Node} {handled waiting : List (PeerId × Gossipsub.Message)}

lemma initial : Node.Listens streamer {} [] [] where
  accepted_eq := rfl
  events_eq := rfl
  handed_eq := rfl
  mem_blacklisted := by simp
  removed_subset := Finset.Subset.refl _

lemma receive (h : n.Listens streamer handled waiting) (own source : PeerId)
    (m : Gossipsub.Message) :
    ∃ waiting', (n.receive own source m).Listens streamer handled waiting' := by
  unfold Node.receive
  split
  · exact ⟨waiting, h⟩
  split
  · exact ⟨waiting, h.accepted_eq, h.events_eq, h.handed_eq, h.mem_blacklisted,
      h.removed_subset⟩
  · refine ⟨waiting ++ [(source, m)], ?_, ?_, h.handed_eq, h.mem_blacklisted, h.removed_subset⟩
    · show n.accepted ++ [(source, m)] = _
      rw [h.accepted_eq, List.append_assoc]
    · show n.events ++ [raised (source, m)] = _
      rw [h.events_eq, List.map_append]
      rfl

lemma expire (h : n.Listens streamer handled waiting) (id : Gossipsub.MessageId) :
    (n.expire id).Listens streamer handled waiting :=
  ⟨h.accepted_eq, h.events_eq, h.handed_eq, h.mem_blacklisted, h.removed_subset⟩

/-- The head of the queue moves from what waits to what was handled. -/
lemma handleListener {e : PeerId × Gossipsub.Message}
    (h : n.Listens streamer handled (e :: waiting)) (hnum : e.2.sequenceNumber.isSome) :
    (n.handleListener streamer (raised e) (waiting.map raised)).Listens streamer
      (handled ++ [e]) waiting where
  accepted_eq := by
    show n.accepted = _
    rw [h.accepted_eq, List.append_assoc]
    rfl
  events_eq := rfl
  handed_eq := by
    show n.handed ++ handedOn (raised e) (processGossipSubEvent _ (raised e) streamer).2 = _
    rw [handedOn_raised _ _ hnum, h.handed_eq, List.flatMap_append, List.flatMap_singleton]
  mem_blacklisted p := by
    show p ∈ (processGossipSubEvent _ (raised e) streamer).1.blacklistedPeers ↔ _
    rw [blacklistedPeers_raised, h.mem_blacklisted]
    constructor
    · rintro (⟨hne, e', he', hp⟩ | ⟨hne, hp⟩)
      · exact ⟨hne, e', List.mem_append_left _ he', hp⟩
      · exact ⟨hne, e, List.mem_append_right _ (List.mem_singleton_self e), hp⟩
    · rintro ⟨hne, e', he', hp⟩
      rcases List.mem_append.mp he' with he' | he'
      · exact Or.inl ⟨hne, e', he', hp⟩
      · rw [List.mem_singleton.mp he'] at hp
        exact Or.inr ⟨hne, hp⟩
  removed_subset := by
    show n.removed ∪ (n.gossipsub.explicitPeers \
        (processGossipSubEvent _ (raised e) streamer).1.explicitPeers) ⊆
      (processGossipSubEvent _ (raised e) streamer).1.blacklistedPeers
    refine Finset.union_subset ?_ (removed_raised_subset _ _ _)
    intro p hp
    exact (blacklistedPeers_raised _ _ _ _).mpr (Or.inl (h.removed_subset hp))

/-- What was handed on once was accepted once. -/
lemma handed_sublist (h : n.Listens streamer handled waiting) :
    (n.handed.map Prod.fst).Sublist (n.accepted.map Prod.snd) := by
  rw [h.handed_eq, h.accepted_eq, List.map_append]
  refine List.Sublist.trans ?_ (List.sublist_append_left _ _)
  clear h
  induction handled with
  | nil => exact List.Sublist.refl _
  | cons e handled ih =>
    rw [List.flatMap_cons, List.map_append, List.map_cons]
    exact (map_fst_handsOn_sublist streamer e).append ih

end Node.Listens

variable {T : Topology} {s s' : Net} {a : NetAction}

lemma Topology.listens_step (hrec : T.Recorded s) {q : PeerId} (hq : q ∈ T.listeners)
    (h : ∃ handled waiting, (s.node q).Listens T.streamer handled waiting)
    (hstep : T.step s a = some s') :
    ∃ handled waiting, (s'.node q).Listens T.streamer handled waiting := by
  obtain ⟨handled, waiting, h⟩ := h
  have hne : q ≠ T.streamer := fun heq => T.streamer_notMem_listeners (heq ▸ hq)
  have hnode := T.nodeStep hstep q
  revert hnode
  generalize s'.node q = n'
  intro hnode
  cases hnode with
  | idle => exact ⟨handled, waiting, h⟩
  | airDuplicate hstreamer => exact absurd hstreamer hne
  | air hstreamer => exact absurd hstreamer hne
  | pollStreamer hstreamer => exact absurd hstreamer hne
  | deliver => exact ⟨handled, h.receive _ _ _⟩
  | pollListener _ hqueue =>
    rw [h.events_eq, List.map_eq_cons_iff] at hqueue
    obtain ⟨e, waiting', rfl, rfl, rfl⟩ := hqueue
    -- An accepted message was published, so it has a sequence number.
    have haccepted : e ∈ (s.node q).accepted := by
      rw [h.accepted_eq]
      exact List.mem_append_right _ List.mem_cons_self
    have hnum := (hrec.signed e.2 ((hrec.node_recorded q).accepted_published e haccepted)).2
    exact ⟨handled ++ [e], waiting', h.handleListener hnum⟩
  | mdns =>
    refine ⟨handled, waiting, h.accepted_eq, h.events_eq, h.handed_eq, ?_, ?_⟩
    · intro p
      rw [blacklistedPeers_processMdnsEvent]
      exact h.mem_blacklisted p
    · rw [blacklistedPeers_processMdnsEvent]
      exact h.removed_subset

lemma Topology.listens_of_reachable (hr : T.expiring.Reachable s) {q : PeerId}
    (hq : q ∈ T.listeners) :
    ∃ handled waiting, (s.node q).Listens T.streamer handled waiting := by
  refine hr.invariant
    (P := fun s : Net => ∃ handled waiting, (s.node q).Listens T.streamer handled waiting)
    ⟨[], [], .initial⟩ (fun t a t' ht ih hstep => ?_)
  cases a with
  | net a => exact T.listens_step (.of_reachable ht) hq ih hstep
  | expire p id =>
    obtain ⟨handled, waiting, h⟩ := ih
    exact ⟨handled, waiting, Net.node_of_expire
      (P := fun n => n.Listens T.streamer handled waiting) hstep q h (h.expire id)⟩

/-! ## In order, and once -/

/-- **A listener handles what its gossipsub accepts in order.**  What it accepted is what it
handled followed by what is queued.  It handed on the decodable messages that the streamer sent
it, in the order of their acceptance, and it blacklisted every other neighbour from which it
handled anything, and nobody else.  It handed a message on at most once more than the message's
id has expired from its cache, so none twice while none expires. -/
theorem listener_handles_in_order (hr : T.expiring.Reachable s) {q : PeerId}
    (hq : q ∈ T.listeners) :
    (∃ handled waiting, (s.node q).accepted = handled ++ waiting ∧
      (s.node q).events = waiting.map raised ∧
      (s.node q).handed = handled.flatMap (handsOn T.streamer) ∧
      ∀ p, p ∈ (s.node q).gossipsub.blacklistedPeers ↔
        p ≠ T.streamer ∧ ∃ e ∈ handled, e.1 = p) ∧
    (∀ m, ((s.node q).handed.map Prod.fst).count m ≤
      (s.node q).expired.count (messageId m) + 1) ∧
    ((s.node q).expired = [] → ((s.node q).handed.map Prod.fst).Nodup) := by
  obtain ⟨handled, waiting, h⟩ := T.listens_of_reachable hr hq
  have hcount : ∀ m, ((s.node q).handed.map Prod.fst).count m ≤
      (s.node q).expired.count (messageId m) + 1 := by
    intro m
    have hrec := (Topology.Recorded.of_reachable hr).node_recorded q
    exact (h.handed_sublist.count_le m).trans (hrec.count_accepted_le m)
  refine ⟨⟨handled, waiting, h.accepted_eq, h.events_eq, h.handed_eq, h.mem_blacklisted⟩, hcount,
    fun hexpired => List.nodup_iff_count_le_one.mpr fun m => ?_⟩
  have hle := hcount m
  rwa [hexpired, List.count_nil] at hle

/-- The streamer's packet is heard; its id expires, a second copy arrives, and the packet is heard
again. -/
def heardAgain : Run threePeers.expiring :=
  Run.ofActions
    [.net (.air (.audioPacket [42]) 1),
      .net (.forward ⟨{ multihash := [1] }, { multihash := [2] },
        threePeers.aired (.audioPacket [42]) 1⟩),
      .net (.deliver ⟨{ multihash := [1] }, { multihash := [2] },
        threePeers.aired (.audioPacket [42]) 1⟩),
      .net (.poll { multihash := [2] }),
      .expire { multihash := [2] } { bytes := toBeBytes 1 },
      .net (.deliver ⟨{ multihash := [1] }, { multihash := [2] },
        threePeers.aired (.audioPacket [42]) 1⟩),
      .net (.poll { multihash := [2] })] (by decide)

theorem listener_handles_in_order_again :
    ((heardAgain.final.node { multihash := [2] }).handed.map Prod.snd =
      [.audioPacket [42], .audioPacket [42]]) ∧
    ((heardAgain.final.node { multihash := [2] }).handed.map Prod.fst).count
      (threePeers.aired (.audioPacket [42]) 1) ≤ 2 := by
  refine ⟨by decide, ?_⟩
  have hle := (listener_handles_in_order heardAgain.visits_final.reachable
    (q := { multihash := [2] }) (by decide)).2.1 (threePeers.aired (.audioPacket [42]) 1)
  exact hle.trans (by decide)

/-! ## Whom a listener stops hearing -/

/-- Whether the last that mDNS told the node `q` of the peer `p` is that it was discovered. -/
def lastReported (q p : PeerId) (discovered : Bool) : ExpiringAction → Bool
  | .net (.mdns q' (.discovered list)) => discovered || (q' = q ∧ p ∈ list.map Prod.fst)
  | .net (.mdns q' (.expired list)) => discovered && ! (q' = q ∧ p ∈ list.map Prod.fst)
  | _ => discovered

/-- Only mDNS moves the streamer in or out of a listener's explicit peers. -/
lemma Topology.streamer_explicit_iff (hstep : T.step s a = some s') {q : PeerId}
    (hq : q ∈ T.listeners) (ha : ∀ event, a ≠ .mdns q event) :
    T.streamer ∈ (s'.node q).gossipsub.explicitPeers ↔
      T.streamer ∈ (s.node q).gossipsub.explicitPeers := by
  have hne : q ≠ T.streamer := fun heq => T.streamer_notMem_listeners (heq ▸ hq)
  have hnode := T.nodeStep hstep q
  revert hnode
  generalize s'.node q = n'
  intro hnode
  cases hnode with
  | idle => exact Iff.rfl
  | airDuplicate hstreamer => exact absurd hstreamer hne
  | air hstreamer => exact absurd hstreamer hne
  | pollStreamer hstreamer => exact absurd hstreamer hne
  | deliver =>
    unfold Node.receive
    split
    · exact Iff.rfl
    split <;> exact Iff.rfl
  | @pollListener event =>
    exact streamer_mem_explicitPeers_processGossipSubEvent _ event T.streamer
  | @mdns event => exact absurd rfl (ha event)

lemma Topology.node_mdns {q : PeerId} {event : MdnsEvent}
    (hstep : T.step s (.mdns q event) = some s') :
    (s'.node q).gossipsub = processMdnsEvent (s.node q).gossipsub event := by
  cases T.steps_of_step hstep with
  | mdns => rw [Net.update_node_self]

lemma Topology.streamer_explicit_step {b : ExpiringAction} (hstep : T.expiringStep s b = some s')
    {q : PeerId} (hq : q ∈ T.listeners) {discovered : Bool}
    (h : T.streamer ∈ (s.node q).gossipsub.explicitPeers ↔ discovered) :
    T.streamer ∈ (s'.node q).gossipsub.explicitPeers ↔ lastReported q T.streamer discovered b := by
  cases b with
  | expire p id =>
    exact Net.node_of_expire
      (P := fun n => T.streamer ∈ n.gossipsub.explicitPeers ↔ discovered) hstep q h h
  | net a =>
    by_cases hmdns : ∃ event, a = .mdns q event
    · obtain ⟨event, rfl⟩ := hmdns
      rw [node_mdns hstep]
      cases event with
      | discovered list => simp [mem_explicitPeers_discovered, lastReported, h]
      | expired list => simp [mem_explicitPeers_expired, lastReported, h]
    · push Not at hmdns
      rw [T.streamer_explicit_iff hstep hq hmdns, h]
      cases a with
      | mdns q' event =>
        have hother : q' ≠ q := fun heq => hmdns event (heq ▸ rfl)
        cases event <;> simp [lastReported, hother]
      | _ => exact Iff.rfl

/-- **The streamer is never silenced.**  No listener ever blacklists the streamer, and its
gossipsub handler never removes it from the explicit peers: it is one of them exactly when the
last that mDNS reported of it is that it was discovered.  So when a copy of the streamer's message
arrives from the streamer itself, the listener has accepted the message by then, unless its
sequence number was taken by a message of another author. -/
theorem streamer_never_silenced (T : Topology) (r : Run T.expiring) :
    (∀ s, r.Visits s → ∀ q ∈ T.listeners,
      T.streamer ∉ (s.node q).gossipsub.blacklistedPeers ∧ T.streamer ∉ (s.node q).removed) ∧
    (∀ q ∈ T.listeners, T.streamer ∈ (r.final.node q).gossipsub.explicitPeers ↔
      r.actions.foldl (lastReported q T.streamer) false) ∧
    ∀ s c s', r.Takes s (.net (.deliver c)) → T.step s (.deliver c) = some s' →
      c.receiver ∈ T.listeners → c.sender = T.streamer →
      c.message.source = some T.streamer →
        (∃ source, (source, c.message) ∈ (s'.node c.receiver).accepted) ∨
        ∃ e ∈ (s.node c.receiver).accepted, e.2.source ≠ some T.streamer ∧
          e.2.sequenceNumber = c.message.sequenceNumber := by
  have hspared : ∀ s, r.Visits s → ∀ q ∈ T.listeners,
      T.streamer ∉ (s.node q).gossipsub.blacklistedPeers ∧
        T.streamer ∉ (s.node q).removed := by
    intro s hv q hq
    obtain ⟨handled, waiting, h⟩ := T.listens_of_reachable hv.reachable hq
    have hnot : T.streamer ∉ (s.node q).gossipsub.blacklistedPeers := by
      intro hmem
      exact ((h.mem_blacklisted _).mp hmem).1 rfl
    exact ⟨hnot, fun hmem => hnot (h.removed_subset hmem)⟩
  refine ⟨hspared, fun q hq => ?_, ?_⟩
  · refine System.exec_foldl (f := lastReported q T.streamer) (b := false)
      (P := fun (s : Net) discovered =>
        T.streamer ∈ (s.node q).gossipsub.explicitPeers ↔ discovered = true)
      ?_ (fun t b t' discovered _ h hstep => T.streamer_explicit_step hstep hq h) r.exec_eq
    simp [Topology.expiring]
  intro s c s' htakes hstep hq hsender hsource
  have hrec : T.Recorded s := .of_reachable htakes.visits.reachable
  have hnot := (hspared s htakes.visits c.receiver hq).1
  have hrej : ¬ (s.node c.receiver).Rejects c.receiver c.sender c.message := by
    rintro (hmem | ⟨author, hmem, hauthor⟩ | hown)
    · exact hnot (hsender ▸ hmem)
    · rw [hsource] at hauthor
      exact hnot (Option.some.inj hauthor ▸ hmem)
    · rw [hsource] at hown
      exact T.streamer_notMem_listeners (Option.some.inj hown ▸ hq)
  have hnode : s'.node c.receiver =
      (s.node c.receiver).receive c.receiver c.sender c.message := by
    cases T.steps_of_step hstep with
    | deliver => exact Net.update_node_self _ _ _
  rw [hnode, Node.receive, if_neg hrej]
  by_cases hdup : messageId c.message ∈ (s.node c.receiver).gossipsub.duplicateCache
  · rw [if_pos hdup]
    obtain ⟨e, he, hnum⟩ := (hrec.node_recorded c.receiver).exists_same_number hdup
    by_cases hes : e.2.source = some T.streamer
    · have hpub := (hrec.node_recorded c.receiver).accepted_published e he
      cases T.steps_of_step hstep with
      | deliver hc =>
        have heq : e.2 = c.message := hrec.streamer_unique e.2 hpub c.message
          (hrec.sent_published c hc) hes hsource hnum
        exact Or.inl ⟨e.1, heq ▸ he⟩
    · exact Or.inr ⟨e, he, hes, hnum⟩
  · rw [if_neg hdup]
    exact Or.inl ⟨c.sender, List.mem_append_right _ (List.mem_singleton_self _)⟩

/-- What the listener `q` keeps once it has blacklisted `p`, relative to what it had accepted
then: the entry stays, and nothing more is accepted from `p` or by `p`. -/
structure Node.Shuns (p : PeerId) (accepted : List (PeerId × Gossipsub.Message)) (n : Node) :
    Prop where
  blacklisted : p ∈ n.gossipsub.blacklistedPeers
  accepted_eq : ∃ fresh, n.accepted = accepted ++ fresh ∧
    ∀ e ∈ fresh, e.1 ≠ p ∧ e.2.source ≠ some p

lemma Topology.shuns_step {q p : PeerId} {accepted : List (PeerId × Gossipsub.Message)}
    (hq : q ∈ T.listeners) (h : (s.node q).Shuns p accepted) (hstep : T.step s a = some s') :
    (s'.node q).Shuns p accepted := by
  have hne : q ≠ T.streamer := fun heq => T.streamer_notMem_listeners (heq ▸ hq)
  have hnode := T.nodeStep hstep q
  revert hnode
  generalize s'.node q = n'
  intro hnode
  cases hnode with
  | idle => exact h
  | airDuplicate hstreamer => exact absurd hstreamer hne
  | air hstreamer => exact absurd hstreamer hne
  | pollStreamer hstreamer => exact absurd hstreamer hne
  | @deliver c =>
    unfold Node.receive
    by_cases hrej : (s.node q).Rejects q c.sender c.message
    · rw [if_pos hrej]
      exact h
    rw [if_neg hrej]
    split
    · exact ⟨h.blacklisted, h.accepted_eq⟩
    · refine ⟨h.blacklisted, ?_⟩
      obtain ⟨fresh, heq, hfresh⟩ := h.accepted_eq
      refine ⟨fresh ++ [(c.sender, c.message)], ?_, ?_⟩
      · show (s.node q).accepted ++ [(c.sender, c.message)] = _
        rw [heq, List.append_assoc]
      · intro e he
        rcases List.mem_append.mp he with he | he
        · exact hfresh e he
        · -- The copy was not rejected, so neither its sender nor its author is `p`.
          rw [List.mem_singleton.mp he]
          constructor
          · intro hsender
            rw [← hsender] at h
            exact hrej (Or.inl h.blacklisted)
          · intro hauthor
            exact hrej (Or.inr (Or.inl ⟨p, h.blacklisted, hauthor⟩))
  | @pollListener event rest _ hqueue =>
    refine ⟨?_, h.accepted_eq⟩
    show p ∈ (processGossipSubEvent _ event T.streamer).1.blacklistedPeers
    exact subset_blacklistedPeers_processGossipSubEvent _ _ _ h.blacklisted
  | mdns =>
    refine ⟨?_, h.accepted_eq⟩
    rw [blacklistedPeers_processMdnsEvent]
    exact h.blacklisted

/-- **A blacklisted peer stays silent.**  From the moment a listener has blacklisted a peer, and
whatever mDNS reports of the peer later, it accepts no copy that the peer sends and no message
that the peer wrote.  It may still hand on a message of the peer only if it accepted it
before. -/
theorem blacklisted_peers_stay_silent (hr : T.expiring.Reachable s) {as : List ExpiringAction}
    (hexec : T.expiring.exec s as = some s') {q p : PeerId} (hq : q ∈ T.listeners)
    (hp : p ∈ (s.node q).gossipsub.blacklistedPeers) :
    p ∈ (s'.node q).gossipsub.blacklistedPeers ∧
    (∃ fresh, (s'.node q).accepted = (s.node q).accepted ++ fresh ∧
      ∀ e ∈ fresh, e.1 ≠ p ∧ e.2.source ≠ some p) ∧
    ∀ h ∈ (s'.node q).handed, h.1.source = some p →
      (T.streamer, h.1) ∈ (s.node q).accepted := by
  have hshuns : (s'.node q).Shuns p (s.node q).accepted := by
    refine System.exec_invariant
      (P := fun t : Net => (t.node q).Shuns p (s.node q).accepted) ⟨hp, [], ?_, ?_⟩
      (fun t b t' _ ht hstep => ?_) hexec
    · rw [List.append_nil]
    · intro e he
      exact absurd he List.not_mem_nil
    · cases b with
      | net a => exact T.shuns_step hq ht hstep
      | expire p' id =>
        exact Net.node_of_expire (P := fun n => n.Shuns p (s.node q).accepted) hstep q ht
          ⟨ht.blacklisted, ht.accepted_eq⟩
  refine ⟨hshuns.blacklisted, hshuns.accepted_eq, ?_⟩
  intro h hh hsource
  obtain ⟨handled, waiting, hlistens⟩ := T.listens_of_reachable (hr.exec hexec) hq
  rw [hlistens.handed_eq, List.mem_flatMap] at hh
  obtain ⟨e, he, hhe⟩ := hh
  obtain ⟨rfl, -⟩ := mem_handsOn.mp hhe
  obtain ⟨fresh, heq, hfresh⟩ := hshuns.accepted_eq
  have hmem : (T.streamer, h.1) ∈ (s'.node q).accepted := by
    rw [hlistens.accepted_eq]
    exact List.mem_append_left _ he
  rw [heq] at hmem
  rcases List.mem_append.mp hmem with hmem | hmem
  · exact hmem
  · exact absurd hsource (hfresh _ hmem).2

/-- The streamer's packet is heard; then the third party sends the listener a message of its
own, and is blacklisted for it. -/
def strangerBlacklisted : Run threePeers.expiring :=
  Run.ofActions
    [.net (.air (.audioPacket [42]) 1),
      .net (.forward ⟨{ multihash := [1] }, { multihash := [2] },
        threePeers.aired (.audioPacket [42]) 1⟩),
      .net (.deliver ⟨{ multihash := [1] }, { multihash := [2] },
        threePeers.aired (.audioPacket [42]) 1⟩),
      .net (.poll { multihash := [2] }),
      .net (.publish { multihash := [3] } [0, 66] 7),
      .net (.forward ⟨{ multihash := [3] }, { multihash := [2] },
        { source := some { multihash := [3] }, data := [0, 66], sequenceNumber := some 7 }⟩),
      .net (.deliver ⟨{ multihash := [3] }, { multihash := [2] },
        { source := some { multihash := [3] }, data := [0, 66], sequenceNumber := some 7 }⟩),
      .net (.poll { multihash := [2] })] (by decide)

/-- The stranger is discovered again by mDNS and sends another message. -/
theorem blacklisted_peers_stay_silent_stranger :
    ∃ s', threePeers.expiring.exec strangerBlacklisted.final
        [.net (.mdns { multihash := [2] } (.discovered [({ multihash := [3] }, { bytes := [] })])),
          .net (.publish { multihash := [3] } [0, 67] 8),
          .net (.forward ⟨{ multihash := [3] }, { multihash := [2] },
            { source := some { multihash := [3] }, data := [0, 67], sequenceNumber := some 8 }⟩),
          .net (.deliver ⟨{ multihash := [3] }, { multihash := [2] },
            { source := some { multihash := [3] }, data := [0, 67],
              sequenceNumber := some 8 }⟩)] = some s' ∧
      ({ multihash := [3] } : PeerId) ∈
        (s'.node { multihash := [2] }).gossipsub.blacklistedPeers := by
  refine ⟨_, Option.some_get (by decide) |>.symm, ?_⟩
  exact (blacklisted_peers_stay_silent strangerBlacklisted.visits_final.reachable
    (Option.some_get (by decide)).symm (by decide) (by decide)).1

/-! ## What is heard -/

/-- What is published is the streamer's, under one of its numbers, or another peer's. -/
lemma Topology.published_cases (hr : T.expiring.Reachable s) :
    ∀ m ∈ s.published, (∃ msg, ∃ seqNo ∈ s.usedNumbers, m = T.aired msg seqNo) ∨
      ∃ author ∈ T.others, m.source = some author := by
  refine hr.invariant (P := fun s : Net => ∀ m ∈ s.published,
    (∃ msg, ∃ seqNo ∈ s.usedNumbers, m = T.aired msg seqNo) ∨
      ∃ author ∈ T.others, m.source = some author) ?_ (fun s a s' _ ih hstep m hm => ?_)
  · intro m hm
    exact absurd hm List.not_mem_nil
  rcases a with a | ⟨p, id⟩
  swap
  · obtain rfl := Net.eq_of_expire hstep
    exact ih m hm
  cases T.steps_of_step hstep with
  | airDuplicate =>
    rcases ih m hm with ⟨msg, seqNo, hused, heq⟩ | hother
    · exact Or.inl ⟨msg, seqNo, List.mem_append_left _ hused, heq⟩
    · exact Or.inr hother
  | @air msg seqNo =>
    rcases List.mem_append.mp hm with hm | hm
    · rcases ih m hm with ⟨msg', seqNo', hused, heq⟩ | hother
      · exact Or.inl ⟨msg', seqNo', List.mem_append_left _ hused, heq⟩
      · exact Or.inr hother
    · exact Or.inl ⟨msg, seqNo, List.mem_append_right _ (List.mem_singleton_self _),
        List.mem_singleton.mp hm⟩
  | @publish author _ _ hauthor =>
    rcases List.mem_append.mp hm with hm | hm
    · exact ih m hm
    · rw [List.mem_singleton.mp hm]
      exact Or.inr ⟨author, hauthor, rfl⟩
  | _ => exact ih m hm

/-- **What is heard was published, byte for byte.**  Whatever a listener hands on was sent to it
by the streamer and was published; its content encodes to exactly the bytes published.  If the
author is the streamer, the streamer aired this very content, under a number it used for
nothing else that it published; otherwise the author is one of the other peers. -/
theorem heard_as_published (hr : T.expiring.Reachable s) {q : PeerId} (hq : q ∈ T.listeners)
    {h : Gossipsub.Message × Message} (hh : h ∈ (s.node q).handed) :
    { sender := T.streamer, receiver := q, message := h.1 } ∈ s.sent ∧
    h.1 ∈ s.published ∧ h.1.data = h.2.encode ∧
    ((∃ seqNo ∈ s.usedNumbers, h.1 = T.aired h.2 seqNo ∧
        ∀ msg, T.aired msg seqNo ∈ s.published → msg = h.2) ∨
      ∃ author ∈ T.others, h.1.source = some author) := by
  have hrec : T.Recorded s := .of_reachable hr
  obtain ⟨handled, waiting, hlistens⟩ := T.listens_of_reachable hr hq
  rw [hlistens.handed_eq, List.mem_flatMap] at hh
  obtain ⟨e, he, hhe⟩ := hh
  obtain ⟨rfl, hcontent⟩ := mem_handsOn.mp hhe
  have haccepted : (T.streamer, h.1) ∈ (s.node q).accepted := by
    rw [hlistens.accepted_eq]
    exact List.mem_append_left _ he
  have hpub : h.1 ∈ s.published := (hrec.node_recorded q).accepted_published _ haccepted
  have hdata : h.2.encode = h.1.data :=
    Message.decode_eq_ok_iff.mp (contentOf_eq_some_iff.mp hcontent)
  refine ⟨T.accepted_sent hr q hq _ haccepted, hpub, hdata.symm, ?_⟩
  rcases T.published_cases hr h.1 hpub with ⟨msg, seqNo, hused, heq⟩ | hother
  · have hmsg : msg = h.2 := by
      have hbytes : msg.encode = h.2.encode := by
        rw [hdata, heq]
        rfl
      exact Message.encode_injective hbytes
    subst hmsg
    refine Or.inl ⟨seqNo, hused, heq, fun msg' hmsg' => ?_⟩
    have hsame : T.aired msg' seqNo = h.1 :=
      hrec.streamer_unique _ hmsg' _ hpub rfl (by rw [heq]; rfl) (by rw [heq]; rfl)
    have hbytes : msg'.encode = h.2.encode := by
      rw [hdata, ← hsame]
      rfl
    exact Message.encode_injective hbytes
  · exact Or.inr hother

theorem heard_as_published_packet :
    ({ sender := { multihash := [1] }, receiver := { multihash := [2] },
       message := threePeers.aired (.audioPacket [42]) 1 } : Copy) ∈
      strangerBlacklisted.final.sent :=
  (heard_as_published strangerBlacklisted.visits_final.reachable (q := { multihash := [2] })
    (h := (threePeers.aired (.audioPacket [42]) 1, .audioPacket [42])) (by decide)
    (by decide)).1

end P2PRadio
