import P2PRadio.P2p.Authenticity

/-!
# Duplicate suppression

A node ignores a message whose id it has seen.  `messageId` is the sequence number alone, and
authors choose their sequence numbers independently, so a message of some other author can
take the id of one of the streamer's, whose message is then lost as a duplicate
(`not_duplicates_are_repeats`).

`duplicates_are_repeats_iff` says when no message is lost this way: exactly when no message of
the streamer reaches a node that has already accepted another author's message with the same
sequence number.
-/

namespace P2PRadio

open Transition

variable {T : Topology} {s s' : Net} {a : NetAction}

/-! ## The exact condition -/

/-- The streamer's messages that a node ignored are messages it has accepted. -/
def Topology.DuplicatesAreRepeats (T : Topology) (s : Net) : Prop :=
  ∀ q, ∀ m ∈ (s.node q).ignored, m.source = some T.streamer →
    ∃ source, (source, m) ∈ (s.node q).accepted

/-- In this step the gossipsub of `q` looks up the id of `m`: a copy of `m` is delivered to it
and not rejected, or `q` is the streamer and publishes `m`. -/
def Topology.LooksUp (T : Topology) (s : Net) (q : PeerId) (m : Gossipsub.Message) :
    NetAction → Prop
  | .deliver c => c.receiver = q ∧ c.message = m ∧ ¬ (s.node q).Rejects q c.sender m
  | .air msg seqNo => q = T.streamer ∧ m = T.aired msg seqNo
  | _ => False

/-- A message of the streamer reaches a node that has accepted another author's message with
the same sequence number. -/
def Topology.MeetsSameNumber (T : Topology) (s : Net) (a : NetAction) : Prop :=
  ∃ q m, T.LooksUp s q m a ∧ m.source = some T.streamer ∧
    ∃ e ∈ (s.node q).accepted, e.2.source ≠ some T.streamer ∧
      e.2.sequenceNumber = m.sequenceNumber

lemma Topology.duplicatesAreRepeats_step (hsound : T.Sound s) (hs : T.DuplicatesAreRepeats s)
    (hstep : T.step s a = some s') (ha : ¬ T.MeetsSameNumber s a) :
    T.DuplicatesAreRepeats s' := by
  intro q m hm hsource
  have hnode := T.nodeStep hstep q
  revert hm hnode
  generalize s'.node q = n'
  intro hm hnode
  cases hnode with
  | @airDuplicate msg seqNo hq hunused hdup =>
    rcases List.mem_append.mp hm with hm | hm
    · exact hs q m hm hsource
    · -- The id cannot be taken: not by another author, and not by the streamer, whose
      -- number is fresh.
      exfalso
      obtain ⟨e, he, hnum⟩ := (hsound.node_sound q).exists_same_number hdup
      by_cases hes : e.2.source = some T.streamer
      · obtain ⟨k, hk, hek⟩ := hsound.streamer_used e.2
          ((hsound.node_sound q).accepted_published e he) hes
        rw [hek] at hnum
        obtain rfl : k = seqNo := Option.some.inj hnum
        exact hunused hk
      · exact ha ⟨q, _, ⟨hq, rfl⟩, rfl, e, he, hes, hnum⟩
  | air =>
    obtain ⟨source, hacc⟩ := hs q m hm hsource
    exact ⟨source, List.mem_append_left _ hacc⟩
  | @deliver c hc hreceiver =>
    unfold Node.receive at hm ⊢
    by_cases hrej : (s.node q).Rejects q c.sender c.message
    · rw [if_pos hrej] at hm ⊢
      exact hs q m hm hsource
    rw [if_neg hrej] at hm ⊢
    by_cases hdup : messageId c.message ∈ (s.node q).gossipsub.duplicateCache
    · rw [if_pos hdup] at hm ⊢
      rcases List.mem_append.mp hm with hm | hm
      · exact hs q m hm hsource
      · obtain rfl := List.mem_singleton.mp hm
        obtain ⟨e, he, hnum⟩ := (hsound.node_sound q).exists_same_number hdup
        have hes : e.2.source = some T.streamer := by
          by_contra hes
          exact ha ⟨q, _, ⟨hreceiver, rfl, hrej⟩, hsource, e, he, hes, hnum⟩
        have heq : e.2 = c.message := hsound.streamer_unique e.2
          ((hsound.node_sound q).accepted_published e he) c.message
          (hsound.sent_published c hc) hes hsource hnum
        exact ⟨e.1, heq ▸ he⟩
    · rw [if_neg hdup] at hm ⊢
      obtain ⟨source, hacc⟩ := hs q m hm hsource
      exact ⟨source, List.mem_append_left _ hacc⟩
  | idle => exact hs q m hm hsource
  | pollStreamer => exact hs q m hm hsource
  | pollListener => exact hs q m hm hsource
  | mdns => exact hs q m hm hsource

/-- A node that accepted another author's message with this number accepted no message of the
streamer with it. -/
lemma Topology.Sound.not_accepted_of_same_number (hsound : T.Sound s) {q : PeerId}
    {e : PeerId × Gossipsub.Message} (he : e ∈ (s.node q).accepted)
    (hes : e.2.source ≠ some T.streamer) {m : Gossipsub.Message}
    (hsource : m.source = some T.streamer) (hnum : e.2.sequenceNumber = m.sequenceNumber)
    (source : PeerId) : (source, m) ∉ (s.node q).accepted := by
  intro hacc
  have heq : e = (source, m) := (hsound.node_sound q).eq_of_messageId_eq he hacc
    (messageId_eq_iff.mpr hnum)
  rw [heq] at hes
  exact hes hsource

lemma Topology.not_duplicatesAreRepeats_step (hsound : T.Sound s)
    (hstep : T.step s a = some s') (ha : T.MeetsSameNumber s a) :
    ¬ T.DuplicatesAreRepeats s' := by
  obtain ⟨q, m, hlooks, hsource, e, he, hes, hnum⟩ := ha
  have hdup : messageId m ∈ (s.node q).gossipsub.duplicateCache :=
    ((hsound.node_sound q).mem_cache_iff _).mpr ⟨e, he, messageId_eq_iff.mpr hnum⟩
  have hnot := hsound.not_accepted_of_same_number he hes hsource hnum
  -- The step ignores `m` and accepts nothing.
  have hn' : s'.node q = (s.node q).ignore m := by
    cases T.steps_of_step hstep with
    | airDuplicate hunused hcache =>
      obtain ⟨rfl, rfl⟩ := hlooks
      exact Net.update_node_self _ _ _
    | air hunused hcache =>
      obtain ⟨rfl, rfl⟩ := hlooks
      exact absurd hdup hcache
    | deliver hc =>
      obtain ⟨rfl, rfl, hrej⟩ := hlooks
      rw [Net.update_node_self, Node.receive, if_neg hrej, if_pos hdup]
    | _ => exact hlooks.elim
  intro hrep
  obtain ⟨source, hacc⟩ := hrep q m
    (by rw [hn']; exact List.mem_append_right _ (List.mem_singleton_self m)) hsource
  rw [hn'] at hacc
  exact hnot source hacc

/-- **Duplicate suppression drops only repeats exactly while no number is taken twice.**  In a
run of the network every message of the streamer that a node ignores as a duplicate is one it
has accepted, if and only if no message of the streamer ever reaches a node that has accepted
another author's message with the same sequence number.  And the id of two accepted messages
determines author and number exactly when equal numbers come from equal authors. -/
theorem duplicates_are_repeats_iff (T : Topology) (r : Run T.network) :
    ((∀ s, r.Visits s → ∀ q, ∀ m ∈ (s.node q).ignored, m.source = some T.streamer →
      ∃ source, (source, m) ∈ (s.node q).accepted) ↔
      ∀ s a, r.Takes s a → ¬ T.MeetsSameNumber s a) ∧
    ∀ s, r.Visits s → ∀ p q, ∀ e ∈ (s.node p).accepted, ∀ e' ∈ (s.node q).accepted,
      ((messageId e.2 = messageId e'.2 →
          e.2.source = e'.2.source ∧ e.2.sequenceNumber = e'.2.sequenceNumber) ↔
        (e.2.sequenceNumber = e'.2.sequenceNumber → e.2.source = e'.2.source)) := by
  constructor
  · apply r.forall_visits_iff (P := T.DuplicatesAreRepeats) (J := T.DuplicatesAreRepeats)
      (C := fun s a => ¬ T.MeetsSameNumber s a)
    · intro q m hm
      exact absurd hm (List.not_mem_nil (a := m))
    · intro s _ hs
      exact hs
    · intro s a s' hr hs hstep ha
      exact T.duplicatesAreRepeats_step (.of_reachable hr) hs hstep ha
    · intro s a s' hr hstep ha
      exact T.not_duplicatesAreRepeats_step (.of_reachable hr) hstep (not_not.mp ha)
  · intro s _ p q e _ e' _
    rw [messageId_eq_iff]
    exact ⟨fun h hnum => (h hnum).1, fun h hnum => ⟨h hnum, hnum⟩⟩

/-- A third party publishes under number `7` and the listener accepts that first; the
streamer's own message `7` is then ignored as a duplicate, though the listener never had it.
The two messages have one id and different authors. -/
theorem not_duplicates_are_repeats :
    (¬ ∀ (T : Topology) (r : Run T.network) (s : Net), r.Visits s → ∀ q,
      ∀ m ∈ (s.node q).ignored, m.source = some T.streamer →
        ∃ source, (source, m) ∈ (s.node q).accepted) ∧
    ¬ ∀ (T : Topology) (r : Run T.network) (s : Net), r.Visits s → ∀ p q,
      ∀ e ∈ (s.node p).accepted, ∀ e' ∈ (s.node q).accepted,
        messageId e.2 = messageId e'.2 →
          e.2.source = e'.2.source ∧ e.2.sequenceNumber = e'.2.sequenceNumber := by
  let streamer : PeerId := { multihash := [1] }
  let listener : PeerId := { multihash := [2] }
  let other : PeerId := { multihash := [3] }
  let taken : Gossipsub.Message :=
    { source := some other, data := [0, 66], sequenceNumber := some 7 }
  let m : Gossipsub.Message := threePeers.aired (.audioPacket [1]) 7
  let r : Run threePeers.network := Run.ofActions
    [.publish other [0, 66] 7, .forward ⟨other, listener, taken⟩,
      .deliver ⟨other, listener, taken⟩,
      .air (.audioPacket [1]) 7, .forward ⟨streamer, listener, m⟩,
      .deliver ⟨streamer, listener, m⟩] (by decide)
  constructor
  · intro hall
    obtain ⟨source, hacc⟩ := hall threePeers r r.final r.visits_final listener m (by decide) rfl
    have hlist : (r.final.node listener).accepted = [(other, taken)] := by decide
    rw [hlist, List.mem_singleton] at hacc
    have hsource : m.source = taken.source := congrArg (fun e => e.2.source) hacc
    exact absurd hsource (by decide)
  · intro hall
    have heq := hall threePeers r r.final r.visits_final listener streamer (other, taken)
      (by decide) (streamer, m) (by decide) (by decide)
    exact absurd heq.1 (by decide)

end P2PRadio
