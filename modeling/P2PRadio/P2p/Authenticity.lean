import P2PRadio.P2p.Bookkeeping

/-!
# Who is heard on a listener's stream

A listener hands a message on if the neighbour it came from is the configured streamer.  It
does not look at the author.  The streamer subscribes to its own topic like every node, and
its gossipsub forwards what it accepts, so a message that some other peer publishes and the
streamer relays passes the check (`not_only_streamer_is_heard`).

`only_streamer_is_heard_iff` locates the defect: a run is authentic exactly when no listener
ever handles a decodable message that the streamer relayed for another author.
`authentic_of_streamer_relays_nothing` reads this as a condition on the network: it is enough
that the streamer sends no listener a decodable message of another author.
-/

namespace P2PRadio

open Transition

/-! ## What is handed on in one step -/

lemma mem_handedOn_processListenerEvent {b : Gossipsub.Behaviour} {streamer : PeerId}
    {event : Gossipsub.Event} {h : Gossipsub.Message × Message} :
    h ∈ handedOn event
        (processListenerEvent b streamer (.behaviour (.gossipsub event))).2 ↔
      ∃ id, event = .message streamer id h.1 ∧ h.1.sequenceNumber.isSome ∧
        Message.decode h.1.data = some (.ok h.2) := by
  obtain ⟨m, msg⟩ := h
  simp only [processListenerEvent, processListenerBehaviorEvent]
  cases event with
  | other => simp [handedOn]
  | message source id m' =>
    by_cases hsource : source = streamer
    · subst hsource
      have hsnd := processGossipSubEvent_streamer_snd b id m' source
      cases hres : (processGossipSubEvent b (.message source id m') source).2 with
      | none =>
        simp only [handedOn, List.not_mem_nil, false_iff, not_exists]
        rintro id' ⟨heq, hnum, hdec⟩
        obtain ⟨-, -, rfl⟩ := Gossipsub.Event.message.inj heq
        rw [(hsnd msg).mpr ⟨hnum, hdec⟩] at hres
        cases hres
      | some msg' =>
        have hok := (hsnd msg').mp hres
        simp only [handedOn, List.mem_singleton, Prod.mk.injEq]
        constructor
        · rintro ⟨rfl, rfl⟩
          exact ⟨id, rfl, hok⟩
        · rintro ⟨id', heq, -, hdec⟩
          obtain ⟨-, -, rfl⟩ := Gossipsub.Event.message.inj heq
          rw [hok.2] at hdec
          exact ⟨rfl, (Except.ok.inj (Option.some.inj hdec)).symm⟩
    · rw [processGossipSubEvent_of_ne hsource]
      simp only [handedOn, List.not_mem_nil, false_iff, not_exists]
      rintro id' ⟨heq, -⟩
      exact hsource (Gossipsub.Event.message.inj heq).1

lemma Node.handed_receive (n : Node) (own source : PeerId) (m : Gossipsub.Message) :
    (n.receive own source m).handed = n.handed := by
  unfold Node.receive
  split
  · rfl
  split <;> rfl

/-- A node hands a message on only by handling its event, which came from the streamer. -/
lemma Topology.NodeStep.mem_handed {T : Topology} {s : Net} {q : PeerId} {a : NetAction}
    {n' : Node} (hs : T.NodeStep s q a n') {h : Gossipsub.Message × Message} :
    h ∈ n'.handed → h ∈ (s.node q).handed ∨
      (a = .poll q ∧ q ∈ T.listeners ∧
        (∃ id rest, (s.node q).events = .message T.streamer id h.1 :: rest) ∧
        Message.decode h.1.data = some (.ok h.2)) := by
  intro hmem
  cases hs with
  | idle => exact Or.inl hmem
  | airDuplicate => exact Or.inl hmem
  | air => exact Or.inl hmem
  | deliver => exact Or.inl (Node.handed_receive _ _ _ _ ▸ hmem)
  | pollStreamer => exact Or.inl hmem
  | pollListener hq hqueue =>
    rcases List.mem_append.mp hmem with hmem | hmem
    · exact Or.inl hmem
    · obtain ⟨id, rfl, -, hdec⟩ := mem_handedOn_processListenerEvent.mp hmem
      exact Or.inr ⟨rfl, hq, ⟨id, _, hqueue⟩, hdec⟩
  | mdns => exact Or.inl hmem

/-! ## The exact condition -/

/-- Everything a listener handed on was written by the streamer. -/
def Topology.OnlyStreamerHeard (T : Topology) (s : Net) : Prop :=
  ∀ q ∈ T.listeners, ∀ h ∈ (s.node q).handed, h.1.source = some T.streamer

/-- The step takes the branch that goes wrong: a listener handles a decodable message that
reached it from the streamer and that somebody else wrote. -/
def Topology.HandlesRelayed (T : Topology) (s : Net) (a : NetAction) : Prop :=
  ∃ q ∈ T.listeners, a = .poll q ∧ ∃ id m rest msg,
    (s.node q).events = .message T.streamer id m :: rest ∧
      Message.decode m.data = some (.ok msg) ∧ m.source ≠ some T.streamer

variable {T : Topology} {s s' : Net} {a : NetAction}

lemma Topology.onlyStreamerHeard_step (hs : T.OnlyStreamerHeard s)
    (hstep : T.step s a = some s') (ha : ¬ T.HandlesRelayed s a) : T.OnlyStreamerHeard s' := by
  intro q hq h hmem
  rcases (nodeStep hstep q).mem_handed hmem with hold | ⟨rfl, -, ⟨id, rest, hqueue⟩, hdec⟩
  · exact hs q hq h hold
  · by_contra hsource
    exact ha ⟨q, hq, rfl, id, h.1, rest, h.2, hqueue, hdec, hsource⟩

lemma Topology.not_onlyStreamerHeard_step (hsound : T.Sound s) (hstep : T.step s a = some s')
    (ha : T.HandlesRelayed s a) : ¬ T.OnlyStreamerHeard s' := by
  obtain ⟨q, hq, rfl, id, m, rest, msg, hqueue, hdec, hsource⟩ := ha
  have hne : q ≠ T.streamer := fun heq => T.streamer_notMem_listeners (heq ▸ hq)
  -- Strict validation: the message has a sequence number because it was published.
  have haccepted : (T.streamer, m) ∈ (s.node q).accepted :=
    (hsound.node_sound q).events_accepted T.streamer id m (by rw [hqueue]; exact .head _)
  have hnum : m.sequenceNumber.isSome :=
    (hsound.signed m ((hsound.node_sound q).accepted_published _ haccepted)).2
  intro hheard
  refine hsource (hheard q hq (m, msg) ?_)
  simp only [step, hqueue, if_neg hne, if_pos hq, Option.some.injEq] at hstep
  rw [← hstep, Net.update_node_self]
  exact List.mem_append_right _ (mem_handedOn_processListenerEvent.mpr ⟨id, rfl, hnum, hdec⟩)

/-- **A listener hears only the streamer exactly while the streamer relays nothing to it.**
In a run of the network every message handed on by a listener was written by the streamer if
and only if no listener ever handles a decodable message that it got from the streamer and
that another peer wrote. -/
theorem only_streamer_is_heard_iff (T : Topology) (r : Run T.network) :
    (∀ s, r.Visits s → ∀ q ∈ T.listeners, ∀ h ∈ (s.node q).handed,
      h.1.source = some T.streamer) ↔
      ∀ s a, r.Takes s a → ¬ T.HandlesRelayed s a := by
  apply r.forall_visits_iff (P := T.OnlyStreamerHeard) (J := T.OnlyStreamerHeard)
    (C := fun s a => ¬ T.HandlesRelayed s a)
  · intro q _ h hh
    exact absurd hh (List.not_mem_nil (a := h))
  · intro s _ hs
    exact hs
  · intro s a s' _ hs hstep ha
    exact T.onlyStreamerHeard_step hs hstep ha
  · intro s a s' hr hstep ha
    exact T.not_onlyStreamerHeard_step (.of_reachable hr) hstep (not_not.mp ha)

/-- Enough for a run to be authentic: the streamer sends no listener a decodable message that
another peer wrote. -/
theorem authentic_of_streamer_relays_nothing (r : Run T.network)
    (hrelay : ∀ s c, r.Takes s (.forward c) → c.sender = T.streamer → c.receiver ∈ T.listeners →
      (∃ msg, Message.decode c.message.data = some (.ok msg)) →
      c.message.source = some T.streamer) {s : Net} (hv : r.Visits s) :
    T.OnlyStreamerHeard s := by
  -- What the streamer has sent to listeners so far.
  have hsent : ∀ t, r.Visits t → ∀ c ∈ t.sent, c.sender = T.streamer → c.receiver ∈ T.listeners →
      (∃ msg, Message.decode c.message.data = some (.ok msg)) →
      c.message.source = some T.streamer := by
    intro t ht
    refine r.invariant_of_takes (P := fun t => ∀ c ∈ t.sent, c.sender = T.streamer →
      c.receiver ∈ T.listeners → (∃ msg, Message.decode c.message.data = some (.ok msg)) →
      c.message.source = some T.streamer) (fun c hc => absurd hc (List.not_mem_nil (a := c)))
      (fun u a u' hu ih hstep c hc => ?_) ht
    rcases T.mem_sent_step hstep hc with hc | ⟨rfl, -⟩
    · exact ih c hc
    · exact hrelay u c hu
  refine r.invariant_of_takes (P := T.OnlyStreamerHeard)
    (fun _ _ h hh => absurd hh (List.not_mem_nil (a := h)))
    (fun t a t' ht hheard hstep => T.onlyStreamerHeard_step hheard hstep ?_) hv
  rintro ⟨q, hq, rfl, id, m, rest, msg, hqueue, hdec, hsource⟩
  have haccepted : (T.streamer, m) ∈ (t.node q).accepted :=
    ((Topology.Sound.of_reachable ht.visits.reachable).node_sound q).events_accepted _ id m
      (by rw [hqueue]; exact .head _)
  have hcopy := T.accepted_sent (T.expiring_of_network ht.visits.reachable) q hq _ haccepted
  exact hsource (hsent t ht.visits _ hcopy rfl hq ⟨msg, hdec⟩)

/-- The smallest network with a third party: the streamer `1`, a listener `2` and a peer `3`
that publishes too. -/
def threePeers : Topology where
  streamer := { multihash := [1] }
  listeners := {{ multihash := [2] }}
  others := {{ multihash := [3] }}
  streamer_notMem_listeners := by decide
  streamer_notMem_others := by decide
  listeners_disjoint_others := by decide

/-- The third party publishes an audio packet and sends it to the streamer, whose gossipsub
accepts it and forwards it to the listener.  The listener hands it on. -/
theorem not_only_streamer_is_heard :
    ¬ ∀ (T : Topology) (r : Run T.network) (s : Net), r.Visits s → ∀ q ∈ T.listeners,
      ∀ h ∈ (s.node q).handed, h.1.source = some T.streamer := by
  intro hall
  let streamer : PeerId := { multihash := [1] }
  let listener : PeerId := { multihash := [2] }
  let other : PeerId := { multihash := [3] }
  let m : Gossipsub.Message := { source := some other, data := [0, 66], sequenceNumber := some 7 }
  let r : Run threePeers.network := Run.ofActions
    [.publish other [0, 66] 7,
      .forward ⟨other, streamer, m⟩, .deliver ⟨other, streamer, m⟩,
      .forward ⟨streamer, listener, m⟩, .deliver ⟨streamer, listener, m⟩,
      .poll listener] (by decide)
  have hheard := hall threePeers r r.final r.visits_final listener (by decide)
    (m, .audioPacket [66]) (by decide)
  exact absurd hheard (by decide)

end P2PRadio
