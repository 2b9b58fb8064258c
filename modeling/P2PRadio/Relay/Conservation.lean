import P2PRadio.Relay.Pipeline

/-!
# Nothing is lost between the encoder and the decoder

Seen from outside its queues the pipeline is a conduit (`Conduit`): the message loop puts in
the next buffer of `sink_rx` or the current value of the watch cell, the bridge takes out the
oldest message, and nothing in between drops, repeats or reorders any.  A packet taken out is
queued for the decoder, a title is shown (`Conduit.Outlet`).  `conduit_step` is the refinement: a
step of the pipeline is a step of its conduit, and one that only moves a message from stage to
stage is none.  `pipeline_conserves` then follows from what a conduit keeps.
-/

namespace P2PRadio

open Channels Transition

/-! ## A conduit -/

/-- The two sources of the message loop, the messages on their way, and what has come out: the
packets queued for the decoder and those it has taken, and the title. -/
structure Conduit where
  sink : List Bytes
  cell : Watch (Option String)
  seen : ℕ
  /-- The loop has been told of a new title and is about to read it. -/
  looking : Bool
  inFlight : List Message
  delivered : List Message
  queued : List Bytes
  decoded : List Bytes
  title : String
  produced : List Bytes
  titlesSet : List String

inductive Conduit.Step (c : Conduit) : Conduit → Prop
  | stay : c.Step c
  | queue (buf : Bytes) :
      c.Step { c with sink := c.sink ++ [buf], produced := c.produced ++ [buf] }
  | set (title : String) :
      c.Step { c with cell := c.cell.send (some title), titlesSet := c.titlesSet ++ [title] }
  | takeBuffer {buf : Bytes} {rest : List Bytes} : c.sink = buf :: rest →
      c.Step { c with sink := rest, inFlight := c.inFlight ++ [.audioPacket buf] }
  | look : c.looking = false → c.seen ≠ c.cell.version →
      c.Step { c with seen := c.cell.version, looking := true }
  | takeTitle {title : String} : c.looking = true → c.cell.value = some title →
      c.Step { c with
        seen := c.cell.version
        looking := false
        inFlight := c.inFlight ++ [.metadata { title }] }
  | lookEmpty : c.looking = true → c.cell.value = none →
      c.Step { c with seen := c.cell.version, looking := false }
  | deliverPacket {buf : Bytes} {rest : List Message} : c.inFlight = .audioPacket buf :: rest →
      c.Step { c with
        inFlight := rest
        delivered := c.delivered ++ [.audioPacket buf]
        queued := c.queued ++ [buf] }
  | deliverTitle {title : String} {rest : List Message} :
      c.inFlight = .metadata { title } :: rest →
      c.Step { c with
        inFlight := rest, delivered := c.delivered ++ [.metadata { title }], title }
  | decode {buf : Bytes} {rest : List Bytes} : c.queued = buf :: rest →
      c.Step { c with queued := rest, decoded := c.decoded ++ [buf] }

lemma Conduit.Step.of_eq {c c' c'' : Conduit} (h : c.Step c') (heq : c'' = c') : c.Step c'' :=
  heq ▸ h

/-- Everything the message loop has taken from its sources. -/
def Conduit.taken (c : Conduit) : List Message := c.delivered ++ c.inFlight

/-- The packets delivered are those the decoder has taken and those queued for it, and the title
shown is the last one delivered. -/
structure Conduit.Outlet (c : Conduit) : Prop where
  delivered_eq : packetsOf c.delivered = c.decoded ++ c.queued
  title_eq : c.title = (titlesOf c.delivered).getLast?.getD ""

/-- The buffers taken and those still on `sink_rx` are the buffers produced; the titles taken are
a reading of the watch cell, up to the version seen, or to an older one while the loop is about
to look; and the outlet is in order. -/
structure Conduit.Sound (c : Conduit) : Prop where
  packets_eq : packetsOf c.taken ++ c.sink = c.produced
  cell : c.cell.Holds c.titlesSet
  titles : ∃ k, Watch.ReadUpTo c.titlesSet k (titlesOf c.taken) ∧
    (c.looking = true → k < c.titlesSet.length) ∧ (c.looking = false → k = c.seen)
  outlet : c.Outlet

lemma packetsOf_concat_metadata (msgs : List Message) (m : Metadata) :
    packetsOf (msgs ++ [.metadata m]) = packetsOf msgs := by
  rw [packetsOf_append]
  exact List.append_nil _

lemma titlesOf_concat_audioPacket (msgs : List Message) (buf : Bytes) :
    titlesOf (msgs ++ [.audioPacket buf]) = titlesOf msgs := by
  rw [titlesOf_append]
  exact List.append_nil _

lemma packetsOf_concat_audioPacket (msgs : List Message) (buf : Bytes) :
    packetsOf (msgs ++ [.audioPacket buf]) = packetsOf msgs ++ [buf] :=
  packetsOf_append _ _

lemma titlesOf_concat_metadata (msgs : List Message) (title : String) :
    titlesOf (msgs ++ [.metadata { title }]) = titlesOf msgs ++ [title] :=
  titlesOf_append _ _

lemma Conduit.Outlet.step {c c' : Conduit} (h : c.Outlet) (hs : c.Step c') : c'.Outlet := by
  obtain ⟨hdelivered, htitle⟩ := h
  cases hs with
  | @deliverPacket buf =>
    refine ⟨?_, ?_⟩
    · show packetsOf (c.delivered ++ [.audioPacket buf]) = c.decoded ++ (c.queued ++ [buf])
      rw [packetsOf_concat_audioPacket, hdelivered, List.append_assoc]
    · show c.title = (titlesOf (c.delivered ++ [.audioPacket buf])).getLast?.getD ""
      rw [titlesOf_concat_audioPacket]
      exact htitle
  | @deliverTitle title =>
    refine ⟨?_, ?_⟩
    · show packetsOf (c.delivered ++ [.metadata { title }]) = _
      rw [packetsOf_concat_metadata]
      exact hdelivered
    · show title = (titlesOf (c.delivered ++ [.metadata { title }])).getLast?.getD ""
      rw [titlesOf_concat_metadata, List.getLast?_concat]
      rfl
  | @decode buf rest hqueued =>
    refine ⟨?_, htitle⟩
    show packetsOf c.delivered = (c.decoded ++ [buf]) ++ rest
    rw [hdelivered, hqueued, List.append_assoc, List.singleton_append]
  | _ => exact ⟨hdelivered, htitle⟩

/-- **The step lemma of a conduit.** -/
lemma Conduit.Sound.step {c c' : Conduit} (h : c.Sound) (hs : c.Step c') : c'.Sound := by
  have houtlet := h.outlet.step hs
  obtain ⟨hpackets, hcell, ⟨k, hread, hlooking, hseen⟩, -⟩ := h
  cases hs with
  | stay | decode => exact ⟨hpackets, hcell, ⟨k, hread, hlooking, hseen⟩, houtlet⟩
  | queue buf =>
    refine ⟨?_, hcell, ⟨k, hread, hlooking, hseen⟩, houtlet⟩
    show packetsOf c.taken ++ (c.sink ++ [buf]) = c.produced ++ [buf]
    rw [← List.append_assoc, hpackets]
  | set title =>
    refine ⟨hpackets, hcell.send title, ⟨k, hread.send title, fun hl => ?_, hseen⟩, houtlet⟩
    show k < (c.titlesSet ++ [title]).length
    rw [List.length_append]
    exact Nat.lt_add_right _ (hlooking hl)
  | @takeBuffer buf rest hsink =>
    have htaken : c.delivered ++ (c.inFlight ++ [.audioPacket buf]) =
        c.taken ++ [.audioPacket buf] := (List.append_assoc _ _ _).symm
    refine ⟨?_, hcell, ⟨k, ?_, hlooking, hseen⟩, houtlet⟩
    · rw [taken, htaken, packetsOf_concat_audioPacket, List.append_assoc, ← hpackets, hsink]
      rfl
    · rw [taken, htaken, titlesOf_concat_audioPacket]
      exact hread
  | look hfalse hne =>
    refine ⟨hpackets, hcell, ⟨k, hread, fun _ => ?_, nofun⟩, houtlet⟩
    have hk : k = c.seen := hseen hfalse
    have hle : k ≤ c.titlesSet.length := hread.le_length
    have hversion : c.cell.version = c.titlesSet.length := hcell.version_eq
    show k < c.titlesSet.length
    omega
  | @takeTitle title htrue hvalue =>
    have htaken : c.delivered ++ (c.inFlight ++ [.metadata { title }]) =
        c.taken ++ [.metadata { title }] := (List.append_assoc _ _ _).symm
    refine ⟨?_, hcell, ⟨c.titlesSet.length, ?_, nofun, fun _ => hcell.version_eq.symm⟩, houtlet⟩
    · rw [taken, htaken, packetsOf_concat_metadata]
      exact hpackets
    · rw [taken, htaken, titlesOf_concat_metadata]
      exact hread.read (hlooking htrue) (hcell.value_eq.symm.trans hvalue)
  | lookEmpty htrue hvalue =>
    -- the loop looks only after a title has been set
    have hnil : c.titlesSet = [] := List.getLast?_eq_none_iff.mp (hcell.value_eq.symm.trans hvalue)
    have hlt := hlooking htrue
    rw [hnil] at hlt
    exact absurd hlt (Nat.not_lt_zero k)
  | @deliverPacket buf rest hfirst =>
    have htaken : (c.delivered ++ [.audioPacket buf]) ++ rest = c.taken := by
      rw [taken, hfirst, List.append_assoc, List.singleton_append]
    refine ⟨?_, hcell, ⟨k, ?_, hlooking, hseen⟩, houtlet⟩
    · rw [taken, htaken]
      exact hpackets
    · rw [taken, htaken]
      exact hread
  | @deliverTitle title rest hfirst =>
    have htaken : (c.delivered ++ [.metadata { title }]) ++ rest = c.taken := by
      rw [taken, hfirst, List.append_assoc, List.singleton_append]
    refine ⟨?_, hcell, ⟨k, ?_, hlooking, hseen⟩, houtlet⟩
    · rw [taken, htaken]
      exact hpackets
    · rw [taken, htaken]
      exact hread

/-! ## The refinement -/

namespace Pipeline

variable {streamer : PeerId} {s s' : Pipeline}

def conduit (s : Pipeline) : Conduit where
  sink := s.sinkRx.items
  cell := s.titleCh
  seen := s.titleRx
  looking := s.msgLoop = .titleChanged
  inFlight := s.inFlight
  delivered := s.delivered
  queued := s.audio.items
  decoded := s.decoded
  title := s.title
  produced := s.produced
  titlesSet := s.titlesSet

/-- **Every step of the pipeline is a step of its conduit.** -/
lemma conduit_step {a : PipelineAction} (hs : s.step streamer a = some s') :
    s.conduit.Step s'.conduit := by
  cases a with
  | queueBuffer buf =>
    obtain ⟨sinkRx, hsend, hs⟩ := Option.bind_eq_some_iff.mp hs
    obtain rfl := Option.some.inj hs
    apply (Conduit.Step.queue (c := s.conduit) buf).of_eq
    simp [conduit, Fifo.items_of_send hsend, inFlight]
  | setTitle title =>
    obtain rfl := Option.some.inj hs
    exact .set title
  | recvBuffer =>
    simp only [step] at hs
    split at hs
    · next hloop =>
      obtain ⟨⟨buf, sinkRx⟩, hrecv, hs⟩ := Option.bind_eq_some_iff.mp hs
      obtain rfl := Option.some.inj hs
      apply (Conduit.Step.takeBuffer (c := s.conduit) (Fifo.items_of_recv hrecv)).of_eq
      simp [conduit, inFlight, hloop, MsgLoop.pending]
    · cases hs
  | titleChanged =>
    simp only [step] at hs
    split at hs
    · next hloop =>
      split at hs
      · cases hs
      · next hne =>
        obtain rfl := Option.some.inj hs
        apply (Conduit.Step.look (c := s.conduit) (by simp [conduit, hloop]) hne).of_eq
        simp [conduit, inFlight, hloop, MsgLoop.pending]
    · cases hs
  | borrowTitle =>
    simp only [step] at hs
    split at hs
    · next hloop =>
      obtain rfl := Option.some.inj hs
      have hlooking : s.conduit.looking = true := by simp [conduit, hloop]
      rcases hvalue : s.titleCh.value with _ | title
      · apply (Conduit.Step.lookEmpty (c := s.conduit) hlooking hvalue).of_eq
        simp [conduit, inFlight, hloop, MsgLoop.pending]
      · apply (Conduit.Step.takeTitle (c := s.conduit) hlooking hvalue).of_eq
        simp [conduit, inFlight, hloop, MsgLoop.pending]
    · cases hs
  | sendPub =>
    simp only [step] at hs
    split at hs
    · next msg hloop =>
      obtain ⟨gossipPub, hsend, hs⟩ := Option.bind_eq_some_iff.mp hs
      obtain rfl := Option.some.inj hs
      apply (Conduit.Step.stay (c := s.conduit)).of_eq
      simp [conduit, inFlight, hloop, MsgLoop.pending, Fifo.items_of_send hsend]
    · cases hs
  | publish seqNo =>
    obtain ⟨⟨msg, gossipPub⟩, hrecv, hs⟩ := Option.bind_eq_some_iff.mp hs
    obtain rfl := Option.some.inj hs
    apply (Conduit.Step.stay (c := s.conduit)).of_eq
    simp [conduit, inFlight, Fifo.items_of_recv hrecv, payload_published]
  | processEvent =>
    simp only [step] at hs
    split at hs
    · next m network hsending hnetwork =>
      obtain rfl := Option.some.inj hs
      apply (Conduit.Step.stay (c := s.conduit)).of_eq
      rcases hpayload : payload m with _ | msg
      · simp [conduit, inFlight, hsending, hnetwork, processGossipSubEvent_payload, hpayload]
      · simp [conduit, inFlight, hsending, hnetwork, processGossipSubEvent_payload, hpayload]
    · cases hs
  | sendSub =>
    simp only [step] at hs
    split at hs
    · next msg hsending =>
      obtain ⟨gossipSub, hsend, hs⟩ := Option.bind_eq_some_iff.mp hs
      obtain rfl := Option.some.inj hs
      apply (Conduit.Step.stay (c := s.conduit)).of_eq
      simp [conduit, inFlight, hsending, Fifo.items_of_send hsend]
    · cases hs
  | bridgeRecv =>
    simp only [step] at hs
    split at hs
    · next hsending =>
      obtain ⟨⟨msg, gossipSub⟩, hrecv, hs⟩ := Option.bind_eq_some_iff.mp hs
      rcases msg with bytes | ⟨title⟩
      · obtain rfl := Option.some.inj hs
        apply (Conduit.Step.stay (c := s.conduit)).of_eq
        simp [conduit, inFlight, hsending, Fifo.items_of_recv hrecv]
      · obtain rfl := Option.some.inj hs
        refine (Conduit.Step.deliverTitle (c := s.conduit) ?_).of_eq rfl
        simp [conduit, inFlight, hsending, Fifo.items_of_recv hrecv]
    · cases hs
  | bridgeSend =>
    simp only [step] at hs
    split at hs
    · next bytes hsending =>
      obtain ⟨audio, hsend, hs⟩ := Option.bind_eq_some_iff.mp hs
      obtain rfl := Option.some.inj hs
      have hfirst : s.conduit.inFlight =
          .audioPacket bytes :: { s with audio, bridgeSending := none }.inFlight := by
        simp [conduit, inFlight, hsending]
      apply (Conduit.Step.deliverPacket hfirst).of_eq
      simp [conduit, inFlight, Fifo.items_of_send hsend]
    · cases hs
  | decode =>
    obtain ⟨⟨bytes, audio⟩, hrecv, hs⟩ := Option.bind_eq_some_iff.mp hs
    obtain rfl := Option.some.inj hs
    exact .decode (Fifo.items_of_recv hrecv)

lemma sound_init (streamer : PeerId) (c : Capacities) :
    (pipeline streamer c).init.conduit.Sound where
  packets_eq := rfl
  cell := ⟨rfl, rfl⟩
  titles := ⟨0, Watch.readUpTo_nil, nofun, fun _ => rfl⟩
  outlet := ⟨rfl, rfl⟩

lemma sound_of_reachable {c : Capacities} (h : (pipeline streamer c).Reachable s) :
    s.conduit.Sound :=
  h.invariant (P := fun t : Pipeline => t.conduit.Sound) (sound_init streamer c)
    fun _ _ _ _ hsound hs => hsound.step (conduit_step hs)

/-- A title is waiting to be read: the cell has changed since the loop last looked, or the loop
is about to look. -/
def TitleWaiting (s : Pipeline) : Prop :=
  s.titleRx ≠ s.titleCh.version ∨ s.msgLoop = .titleChanged

instance (s : Pipeline) : Decidable s.TitleWaiting := inferInstanceAs (Decidable (_ ∨ _))

/-- Unless a title waits, the last one taken is the last one set. -/
lemma getLast?_titles_taken (hsound : s.conduit.Sound) (hwaiting : ¬ s.TitleWaiting) :
    (titlesOf s.conduit.taken).getLast? = s.titlesSet.getLast? := by
  obtain ⟨-, hcell, ⟨k, hread, -, hseen⟩, -⟩ := hsound
  obtain ⟨hversion, hloop⟩ := not_or.mp hwaiting
  have hk : k = s.titlesSet.length := by
    rw [hseen (decide_eq_false hloop)]
    exact (not_not.mp hversion).trans hcell.version_eq
  subst hk
  exact hread.getLast?_of_length

lemma titlesOf_taken (s : Pipeline) :
    titlesOf s.conduit.taken = titlesOf s.delivered ++ titlesOf s.inFlight := titlesOf_append _ _

/-- Once no title waits or is in flight, the last one set is shown. -/
lemma title_eq_of_settled (hsound : s.conduit.Sound) (hwaiting : ¬ s.TitleWaiting)
    (hnone : titlesOf s.inFlight = []) : s.title = s.titlesSet.getLast?.getD "" := by
  rw [← getLast?_titles_taken hsound hwaiting, titlesOf_taken, hnone, List.append_nil]
  exact hsound.outlet.title_eq

end Pipeline

/-- **Audio and titles are conserved end to end.**  In every state of every run, over queues of
any capacity:

* the packets the decoder has taken and those queued for it, those in flight stage by stage and
  those still on `sink_rx` are the buffers produced, in order; what the bridge has handed to the
  decoder is what the decoder has taken and what is queued for it;
* the titles written to the listener's shared title, with those in flight, are a subsequence of
  the titles set, in order; it ends with the last title set unless that one is still waiting to
  be read.  The shared title is the last one written, and once no title waits or is in flight
  it is the last one set. -/
theorem pipeline_conserves (streamer : PeerId) (c : Capacities) (s : Pipeline)
    (hs : (pipeline streamer c).Reachable s) :
    (s.decoded ++ s.audio.items ++ s.bridgeSending.toList ++ packetsOf s.gossipSub.items ++
      packetsOf s.swarmSending.toList ++ packetsOf (s.network.filterMap payload) ++
      packetsOf s.gossipPub.items ++ packetsOf s.msgLoop.pending ++ s.sinkRx.items =
        s.produced) ∧
    packetsOf s.delivered = s.decoded ++ s.audio.items ∧
    (titlesOf s.delivered ++ titlesOf s.inFlight).Sublist s.titlesSet ∧
    (¬ s.TitleWaiting →
      (titlesOf s.delivered ++ titlesOf s.inFlight).getLast? = s.titlesSet.getLast?) ∧
    s.title = (titlesOf s.delivered).getLast?.getD "" ∧
    (¬ s.TitleWaiting → titlesOf s.inFlight = [] → s.title = s.titlesSet.getLast?.getD "") := by
  have hsound := Pipeline.sound_of_reachable hs
  obtain ⟨k, hread, -, -⟩ := hsound.titles
  obtain ⟨hdelivered, htitle⟩ := hsound.outlet
  rw [Pipeline.titlesOf_taken] at hread
  refine ⟨?_, hdelivered, hread.sublist_log, fun hwaiting => ?_, htitle,
    Pipeline.title_eq_of_settled hsound⟩
  · have hbridge : packetsOf (s.bridgeSending.map Message.audioPacket).toList =
        s.bridgeSending.toList := by
      cases s.bridgeSending <;> rfl
    have hstages : packetsOf s.conduit.taken =
        s.decoded ++ s.audio.items ++ s.bridgeSending.toList ++ packetsOf s.gossipSub.items ++
          packetsOf s.swarmSending.toList ++ packetsOf (s.network.filterMap payload) ++
          packetsOf s.gossipPub.items ++ packetsOf s.msgLoop.pending := by
      have hout : packetsOf s.delivered = s.decoded ++ s.audio.items := hdelivered
      show packetsOf (s.delivered ++ s.inFlight) = _
      simp only [Pipeline.inFlight, packetsOf_append, hbridge, hout, List.append_assoc]
    rw [← hstages]
    exact hsound.packets_eq
  · rw [← Pipeline.titlesOf_taken]
    exact Pipeline.getLast?_titles_taken hsound hwaiting

/-- Two titles are set before the loop looks again, the second one between `changed()` and
`borrow_and_update()`: the first is never sent on.  Of the packets one is decoded, one queued for
the decoder and one still on `sink_rx`. -/
def coalescedTitles : Run (pipeline ⟨[0]⟩ ⟨1, 1, 1, 1⟩) :=
  .ofActions
    [.setTitle "First", .queueBuffer [7], .titleChanged, .setTitle "Second", .borrowTitle,
      .sendPub, .recvBuffer, .publish 1, .sendPub, .queueBuffer [8], .publish 2, .processEvent,
      .sendSub, .processEvent, .bridgeRecv, .sendSub, .bridgeRecv, .bridgeSend, .recvBuffer,
      .sendPub, .publish 3, .processEvent, .sendSub, .bridgeRecv, .decode, .bridgeSend,
      .queueBuffer [9]]
    (by decide +kernel)

theorem pipeline_conserves_coalesced :
    coalescedTitles.final.decoded ++ coalescedTitles.final.audio.items = [[7], [8]] ∧
    coalescedTitles.final.audio.items = [[8]] ∧
    coalescedTitles.final.sinkRx.items = [[9]] ∧
    coalescedTitles.final.titlesSet = ["First", "Second"] ∧
    titlesOf coalescedTitles.final.delivered = ["Second"] ∧
    coalescedTitles.final.title = "Second" := by
  have hreach := coalescedTitles.visits_final.reachable
  obtain ⟨-, hout, -, -, -, hdrained⟩ := pipeline_conserves _ _ _ hreach
  have hset : coalescedTitles.final.titlesSet = ["First", "Second"] := by decide +kernel
  refine ⟨hout.symm.trans (by decide +kernel), by decide +kernel, by decide +kernel, hset,
    by decide +kernel, ?_⟩
  rw [hdrained (by decide +kernel) (by decide +kernel), hset]
  rfl

end P2PRadio
