import Mathlib.Data.Finset.Dedup
import Mathlib.Data.Finset.SDiff
import P2PRadio.Support.Transition
import P2PRadio.P2p.Swarm

/-!
# The explicit peers of a node

Two handlers write the set of explicit peers: the mDNS handler adds and removes what it
discovers and what expires, and a listener's gossipsub handler removes the neighbours it
blacklists.  This file follows the set over whole runs of a listener and of a streamer.

The mDNS handler does not look at the blacklist, so a blacklisted peer that mDNS discovers
again is an explicit peer again (`not_blacklisted_stays_out`).
`blacklisted_stays_out_iff` says exactly which runs keep the blacklisted peers out.

It does not look at the addresses either, so a peer announced on two of them is dropped when
one expires (`not_explicit_peers_track_discovery`).  `explicit_peers_track_discovery_iff` says
exactly in which runs a streamer's explicit peers are the peers still announced.
-/

namespace P2PRadio

open Transition

/-! ## The listener's swarm loop -/

/-- The state of `ListenerSwarmService::run`: the behaviour, and what was sent on
`gossip_sub_tx`, oldest first. -/
structure ListenerSwarm where
  gossipsub : Gossipsub.Behaviour := {}
  sent : List Message := []

/-- `ListenerSwarmService::run` with an open channel: one step for each event of the swarm, in
whatever order the swarm reports them. -/
def listenerSwarm (streamerPeerId : PeerId) : System ListenerSwarm SwarmEvent where
  init := {}
  step s event :=
    let result := processListenerEvent s.gossipsub streamerPeerId event
    some { gossipsub := result.1, sent := s.sent ++ result.2.toList }

lemma listenerSwarm_step {streamer : PeerId} {s s' : ListenerSwarm} {event : SwarmEvent}
    (h : (listenerSwarm streamer).step s event = some s') :
    s'.gossipsub = (processListenerEvent s.gossipsub streamer event).1 := by
  rw [← Option.some.inj h]

/-! ## Blacklisted peers -/

/-- No blacklisted peer is an explicit peer. -/
def BlacklistedOut (s : ListenerSwarm) : Prop :=
  ∀ p ∈ s.gossipsub.blacklistedPeers, p ∉ s.gossipsub.explicitPeers

/-- The event does not announce a peer that is blacklisted when it arrives. -/
def AnnouncesNoneBlacklisted (s : ListenerSwarm) (event : SwarmEvent) : Prop :=
  ∀ list, event = .behaviour (.mdns (.discovered list)) →
    ∀ p ∈ list.map Prod.fst, p ∉ s.gossipsub.blacklistedPeers

lemma blacklistedOut_step {streamer : PeerId} {s s' : ListenerSwarm} {event : SwarmEvent}
    (hs : BlacklistedOut s) (hevent : AnnouncesNoneBlacklisted s event)
    (h : (listenerSwarm streamer).step s event = some s') : BlacklistedOut s' := by
  have hg := listenerSwarm_step h
  rw [BlacklistedOut, hg]
  rcases event with (event | event | _) | _
  · -- mDNS keeps the blacklist; only `discovered` can bring a blacklisted peer in.
    intro p hp
    have hp' : p ∈ s.gossipsub.blacklistedPeers := by
      simpa only [processListenerEvent, processListenerBehaviorEvent,
        blacklistedPeers_processMdnsEvent] using hp
    simp only [processListenerEvent, processListenerBehaviorEvent]
    cases event with
    | discovered list =>
      rw [mem_explicitPeers_discovered]
      rintro (hin | hlist)
      · exact hs p hp' hin
      · exact hevent list rfl p hlist hp'
    | expired list =>
      rw [mem_explicitPeers_expired]
      exact fun hin => hs p hp' hin.1
  · cases event with
    | other => exact hs
    | message source id m =>
      by_cases hsource : source = streamer
      · simp only [processListenerEvent, processListenerBehaviorEvent, hsource,
          processGossipSubEvent_streamer_fst]
        exact hs
      · -- The blacklisted neighbour leaves the explicit peers in the same step.
        simp only [processListenerEvent, processListenerBehaviorEvent,
          processGossipSubEvent_of_ne hsource]
        intro p hp hin
        simp only [Gossipsub.Behaviour.blacklistedPeers_removeExplicitPeer,
          Gossipsub.Behaviour.blacklistedPeers_blacklistPeer, Finset.mem_insert] at hp
        simp only [Gossipsub.Behaviour.explicitPeers_removeExplicitPeer,
          Gossipsub.Behaviour.explicitPeers_blacklistPeer, Finset.mem_erase] at hin
        rcases hp with rfl | hp
        · exact hin.1 rfl
        · exact hs p hp hin.2
  · exact hs
  · exact hs

lemma not_blacklistedOut_step {streamer : PeerId} {s s' : ListenerSwarm} {event : SwarmEvent}
    (h : (listenerSwarm streamer).step s event = some s')
    (hevent : ¬ AnnouncesNoneBlacklisted s event) : ¬ BlacklistedOut s' := by
  simp only [AnnouncesNoneBlacklisted, not_forall, not_not] at hevent
  obtain ⟨list, rfl, p, hlist, hp⟩ := hevent
  have hg := listenerSwarm_step h
  intro hout
  refine hout p ?_ ?_
  · rw [hg]
    simpa only [processListenerEvent, processListenerBehaviorEvent,
      blacklistedPeers_processMdnsEvent] using hp
  · rw [hg]
    simp only [processListenerEvent, processListenerBehaviorEvent]
    exact mem_explicitPeers_discovered.mpr (Or.inr hlist)

/-- **A blacklisted peer stays out exactly while mDNS does not announce it.**  In a run of a
listener no blacklisted peer is ever an explicit peer if and only if no `Discovered` event of
the run lists a peer that is blacklisted when the event arrives. -/
theorem blacklisted_stays_out_iff (streamer : PeerId) (r : Run (listenerSwarm streamer)) :
    (∀ s, r.Visits s → ∀ p ∈ s.gossipsub.blacklistedPeers, p ∉ s.gossipsub.explicitPeers) ↔
      ∀ s event, r.Takes s event → ∀ list, event = .behaviour (.mdns (.discovered list)) →
        ∀ p ∈ list.map Prod.fst, p ∉ s.gossipsub.blacklistedPeers := by
  apply r.forall_visits_iff (P := BlacklistedOut) (J := BlacklistedOut)
    (C := AnnouncesNoneBlacklisted)
  · intro p hp
    exact absurd hp (Finset.notMem_empty p)
  · intro s _ hs
    exact hs
  · intro s event s' _ hs hstep hevent
    exact blacklistedOut_step hs hevent hstep
  · intro s event s' _ hstep hevent
    exact not_blacklistedOut_step hstep hevent

/-- A neighbour relays one message of the streamer's, is blacklisted for it, and is announced
by mDNS again: it is blacklisted and an explicit peer. -/
theorem not_blacklisted_stays_out :
    ¬ ∀ (streamer : PeerId) (r : Run (listenerSwarm streamer)) (s : ListenerSwarm),
      r.Visits s → ∀ p ∈ s.gossipsub.blacklistedPeers, p ∉ s.gossipsub.explicitPeers := by
  intro hall
  let streamer : PeerId := { multihash := [1] }
  let relay : PeerId := { multihash := [2] }
  let address : Multiaddr := { bytes := [4, 127, 0, 0, 1] }
  let m : Gossipsub.Message :=
    { source := some streamer, data := [0, 42], sequenceNumber := some 1 }
  let r : Run (listenerSwarm streamer) := Run.ofActions
    [.behaviour (.gossipsub (.message relay (messageId m) m)),
      .behaviour (.mdns (.discovered [(relay, address)]))] (by decide)
  exact hall streamer r r.final r.visits_final relay (by decide) (by decide)

/-! ## The streamer's swarm loop -/

/-- The state of `StreamerSwarmService::run`: the behaviour, and the discovered pairs that have
not expired, which no step reads. -/
structure StreamerSwarm where
  gossipsub : Gossipsub.Behaviour := {}
  live : Finset (PeerId × Multiaddr) := ∅

/-- What mDNS announces after an event. -/
def liveAfter (live : Finset (PeerId × Multiaddr)) : SwarmEvent → Finset (PeerId × Multiaddr)
  | .behaviour (.mdns (.discovered list)) => live ∪ list.toFinset
  | .behaviour (.mdns (.expired list)) => live \ list.toFinset
  | _ => live

/-- `StreamerSwarmService::run`: one step for each event of the swarm.  Publishing a message
leaves the explicit peers alone. -/
def streamerSwarm : System StreamerSwarm SwarmEvent where
  init := {}
  step s event := some
    { gossipsub := processStreamerEvent s.gossipsub event, live := liveAfter s.live event }

/-! ## Discovered peers -/

/-- The peer is announced on some address. -/
def StreamerSwarm.Announced (s : StreamerSwarm) (p : PeerId) : Prop :=
  ∃ address, (p, address) ∈ s.live

/-- Every explicit peer is still announced. -/
def ExplicitAnnounced (s : StreamerSwarm) : Prop :=
  ∀ p ∈ s.gossipsub.explicitPeers, s.Announced p

/-- The explicit peers are the peers still announced. -/
def TracksDiscovery (s : StreamerSwarm) : Prop :=
  ∀ p, p ∈ s.gossipsub.explicitPeers ↔ s.Announced p

/-- Whatever peer the event expires, it expires on all its addresses. -/
def ExpiresWholePeers (s : StreamerSwarm) (event : SwarmEvent) : Prop :=
  ∀ list, event = .behaviour (.mdns (.expired list)) →
    ∀ p ∈ list.map Prod.fst, ∀ address, (p, address) ∈ s.live → (p, address) ∈ list

section
variable {s s' : StreamerSwarm} {event : SwarmEvent}

lemma explicitAnnounced_step (hs : ExplicitAnnounced s)
    (h : streamerSwarm.step s event = some s') : ExplicitAnnounced s' := by
  obtain rfl := Option.some.inj h
  rcases event with (event | event | _) | _
  · cases event with
    | discovered list =>
      intro p hp
      rcases mem_explicitPeers_discovered.mp hp with hold | hlist
      · obtain ⟨address, hlive⟩ := hs p hold
        exact ⟨address, Finset.mem_union_left _ hlive⟩
      · obtain ⟨⟨_, address⟩, hmem, rfl⟩ := List.mem_map.mp hlist
        exact ⟨address, Finset.mem_union_right _ (List.mem_toFinset.mpr hmem)⟩
    | expired list =>
      intro p hp
      obtain ⟨hold, hkept⟩ := mem_explicitPeers_expired.mp hp
      obtain ⟨address, hlive⟩ := hs p hold
      refine ⟨address, Finset.mem_sdiff.mpr ⟨hlive, ?_⟩⟩
      intro hmem
      exact hkept (List.mem_map_of_mem (List.mem_toFinset.mp hmem))
  · exact hs
  · exact hs
  · exact hs

lemma tracksDiscovery_step (hs : TracksDiscovery s) (hevent : ExpiresWholePeers s event)
    (h : streamerSwarm.step s event = some s') : TracksDiscovery s' := by
  intro p
  refine ⟨explicitAnnounced_step (fun q => (hs q).mp) h p, ?_⟩
  obtain rfl := Option.some.inj h
  rintro ⟨address, hlive⟩
  rcases event with (event | event | _) | _
  · cases event with
    | discovered list =>
      apply mem_explicitPeers_discovered.mpr
      rcases Finset.mem_union.mp hlive with hold | hmem
      · exact Or.inl ((hs p).mpr ⟨address, hold⟩)
      · exact Or.inr (List.mem_map_of_mem (f := Prod.fst) (List.mem_toFinset.mp hmem))
    | expired list =>
      obtain ⟨hold, hkept⟩ := Finset.mem_sdiff.mp hlive
      apply mem_explicitPeers_expired.mpr
      refine ⟨(hs p).mpr ⟨address, hold⟩, ?_⟩
      -- an expired peer has expired on this address too
      intro hlist
      exact hkept (List.mem_toFinset.mpr (hevent list rfl p hlist address hold))
  · exact (hs p).mpr ⟨address, hlive⟩
  · exact (hs p).mpr ⟨address, hlive⟩
  · exact (hs p).mpr ⟨address, hlive⟩

lemma not_tracksDiscovery_step (h : streamerSwarm.step s event = some s')
    (hevent : ¬ ExpiresWholePeers s event) : ¬ TracksDiscovery s' := by
  simp only [ExpiresWholePeers, not_forall] at hevent
  obtain ⟨list, rfl, p, hlist, address, hold, hkept⟩ := hevent
  obtain rfl := Option.some.inj h
  intro htracks
  have hlive : (p, address) ∈ s.live \ list.toFinset :=
    Finset.mem_sdiff.mpr ⟨hold, fun hmem => hkept (List.mem_toFinset.mp hmem)⟩
  have hexplicit := (htracks p).mpr ⟨address, hlive⟩
  exact (mem_explicitPeers_expired.mp hexplicit).2 hlist

end

/-- **The explicit peers are the peers still announced exactly while peers expire as a whole.**
In a run of a streamer a peer is explicit if and only if one of its discovered addresses has not
expired, in every state visited, if and only if no `Expired` event of the run names a peer and
leaves it another live address.  The explicit peers are among those still announced in any
case. -/
theorem explicit_peers_track_discovery_iff (r : Run streamerSwarm) :
    ((∀ s, r.Visits s →
        ∀ p, p ∈ s.gossipsub.explicitPeers ↔ ∃ address, (p, address) ∈ s.live) ↔
      ∀ s event, r.Takes s event → ∀ list, event = .behaviour (.mdns (.expired list)) →
        ∀ p ∈ list.map Prod.fst, ∀ address, (p, address) ∈ s.live → (p, address) ∈ list) ∧
    ∀ s, r.Visits s → ∀ p ∈ s.gossipsub.explicitPeers, ∃ address, (p, address) ∈ s.live := by
  constructor
  · apply r.forall_visits_iff (P := TracksDiscovery) (J := TracksDiscovery)
      (C := ExpiresWholePeers)
    · intro p
      constructor
      · intro hp
        exact absurd hp (Finset.notMem_empty p)
      · rintro ⟨address, hlive⟩
        exact absurd hlive (Finset.notMem_empty (p, address))
    · intro s _ hs
      exact hs
    · intro s event s' _ hs hstep hevent
      exact tracksDiscovery_step hs hevent hstep
    · intro s event s' _ hstep hevent
      exact not_tracksDiscovery_step hstep hevent
  · intro s hv
    apply r.invariant (P := ExplicitAnnounced) _ _ hv
    · intro p hp
      exact absurd hp (Finset.notMem_empty p)
    · intro s event s' _ hs hstep
      exact explicitAnnounced_step hs hstep

/-- A peer is announced on two addresses and one of them expires: the peer is still announced,
and no longer explicit. -/
theorem not_explicit_peers_track_discovery :
    ¬ ∀ (r : Run streamerSwarm) (s : StreamerSwarm), r.Visits s →
      ∀ p, p ∈ s.gossipsub.explicitPeers ↔ ∃ address, (p, address) ∈ s.live := by
  intro hall
  let peer : PeerId := { multihash := [2] }
  let wired : Multiaddr := { bytes := [4, 10, 0, 0, 2] }
  let wireless : Multiaddr := { bytes := [4, 10, 0, 1, 2] }
  let r : Run streamerSwarm := Run.ofActions
    [.behaviour (.mdns (.discovered [(peer, wired), (peer, wireless)])),
      .behaviour (.mdns (.expired [(peer, wired)]))] (by decide)
  have hexplicit := (hall r r.final r.visits_final peer).mpr ⟨wireless, by decide⟩
  exact absurd hexplicit (by decide)

end P2PRadio
