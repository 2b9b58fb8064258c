import P2PRadio.Backend.ServiceResults
import P2PRadio.Support.Progress

/-!
# Pads that come and go

A source may start a new stream at any time, and then `parsebin` adds a new pad.  The two
`pad-added` closures of `create_icecast_pipeline` (`src/backend/icecast_ogg.rs`) link the pads as
they appear, and `Stream::main_loop` hears of what goes wrong over the bus.

The closure of `urisourcebin` links the first pad it can, and only logs a refusal.  The closure
of `parsebin` moves the link of `rtpopuspay` to the newest pad, and posts an error when GStreamer
refuses.  So the payloader follows `parsebin`, or the main loop ends
(`payloader_follows_parsebin`).

GStreamer is not part of the repository: the actions carry its answers, as in
`Backend/Pipelines.lean`.  Pads are compared by identity, and a pad that is removed is unlinked.
A closure runs as one step.
-/

namespace P2PRadio

open Transition

/-! ## The closures -/

/-- `gst::PadLinkError` -/
inductive PadLinkError where
  | wrongHierarchy
  | wasLinked
  | wrongDirection
  | noformat
  | nosched
  | refused
  deriving DecidableEq, Repr

/-- What GStreamer answers to the calls of a closure, and what it adds to an element's error. -/
structure PadCalls where
  /-- `old_peer.unlink(&sink_pad)` succeeds. -/
  unlink : Bool
  /-- `src_pad.link(&sink_pad)`, for a sink pad that is not linked. -/
  link : Except PadLinkError Unit
  display : PadLinkError → String
  binPath : String
  debug : Option String

section
variable {π : Type}

/-- `src_pad.link(&sink_pad)`: the answer, and the peer of the sink pad afterwards. -/
def linkPad (peer : Option π) (srcPad : π) (gst : PadCalls) :
    Except PadLinkError Unit × Option π :=
  match peer, gst.link with
  | some peer, _ => (.error .wasLinked, some peer)
  | none, .ok () => (.ok (), some srcPad)
  | none, .error err => (.error err, none)

/-- The closure of `urisourcebin`, on the peer of `parsebin`'s sink pad. -/
def urisourcebinPadAdded (peer : Option π) (srcPad : π) (gst : PadCalls) : Option π :=
  if peer.isSome then peer else (linkPad peer srcPad gst).2

/-- The closure of `parsebin`, on the peer of `rtpopuspay`'s sink pad: the peer afterwards, and
the messages posted. -/
def parsebinPadAdded (peer : Option π) (srcPad : π) (gst : PadCalls) :
    Option π × List BusMessage :=
  -- Unlink the old pad
  let peer := if gst.unlink then none else peer
  match linkPad peer srcPad gst with
  | (.ok (), peer) => (peer, [])
  | (.error err, peer) =>
    (peer, [.error {
      src := gst.binPath
      error := "Failed to link parsebin sink to rtpopuspay src: " ++ gst.display err
      debug := gst.debug }])

/-- A pad that is removed is unlinked. -/
def removePad [DecidableEq π] (peer : Option π) (pad : π) : Option π :=
  if peer = some pad then none else peer

end

/-! ## The pipeline and its main loop -/

structure StreamWithPipeline (π : Type) where
  /-- The peers of the sink pads of `parsebin` and `rtpopuspay`. -/
  parsebin : Option π := none
  rtpopuspay : Option π := none
  bus : List BusMessage := []
  mainLoop : ServiceState (Except AnyhowError Unit) := Stream.mainLoop.system.init
  /-- The last pad that `parsebin` has added, unless it is gone.  No step reads it. -/
  lastPad : Option π := none

inductive PadAction (π : Type) where
  | urisourcebinPadAdded (srcPad : π) (gst : PadCalls)
  | parsebinPadAdded (srcPad : π) (gst : PadCalls)
  | padRemoved (pad : π)
  /-- An element posts a message. -/
  | post (msg : BusMessage)
  | mainLoop (a : ServiceAction MainLoopBranch)

/-- The main loop reads a message of the bus. -/
def PadAction.readsBus {π : Type} : PadAction π → Bool
  | .mainLoop (.branch (.message _)) => true
  | _ => false

namespace StreamWithPipeline

/-- The closures hold their elements weakly, and `main_loop` drops the pipeline when it
returns. -/
def isDropped {π : Type} (s : StreamWithPipeline π) : Bool :=
  match s.mainLoop.phase with
  | .returned _ => true
  | _ => false

lemma over_of_isDropped {π : Type} {s : StreamWithPipeline π} (h : s.isDropped) :
    s.mainLoop.phase.Over := by
  unfold isDropped at h
  split at h
  · next ret hphase =>
    rw [hphase]
    trivial
  · cases h

variable {π : Type} [DecidableEq π]

def step (s : StreamWithPipeline π) : PadAction π → Option (StreamWithPipeline π)
  | .urisourcebinPadAdded srcPad gst =>
    if s.isDropped then some s
    else some { s with parsebin := P2PRadio.urisourcebinPadAdded s.parsebin srcPad gst }
  | .parsebinPadAdded srcPad gst =>
    if s.isDropped then some { s with lastPad := some srcPad }
    else
      let added := P2PRadio.parsebinPadAdded s.rtpopuspay srcPad gst
      some { s with rtpopuspay := added.1, bus := s.bus ++ added.2, lastPad := some srcPad }
  | .padRemoved pad =>
    some { s with
      parsebin := removePad s.parsebin pad
      rtpopuspay := removePad s.rtpopuspay pad
      lastPad := removePad s.lastPad pad }
  | .post msg => some { s with bus := s.bus ++ [msg] }
  | .mainLoop (.branch (.message msg)) =>
    match s.bus with
    | first :: bus =>
      if first = msg then
        (Stream.mainLoop.step s.mainLoop (.branch (.message msg))).map fun mainLoop =>
          { s with bus, mainLoop }
      else none
    | [] => none
  | .mainLoop a =>
    (Stream.mainLoop.step s.mainLoop a).map fun mainLoop => { s with mainLoop }

end StreamWithPipeline

/-- The pipeline of `create_icecast_pipeline` with its main loop. -/
def streamWithPipeline (π : Type) [DecidableEq π] :
    System (StreamWithPipeline π) (PadAction π) where
  init := {}
  step := StreamWithPipeline.step

/-! ## One step -/

lemma PipelineService.over_of_step {β ρ : Type} {svc : PipelineService β ρ}
    {s s' : ServiceState ρ} {a : ServiceAction β} (hs : svc.step s a = some s')
    (h : s.phase.Over) : s'.phase.Over := by
  have hne : ∀ {phase : Phase ρ}, s.phase = phase → ¬ phase.Over → s'.phase.Over := by
    rintro phase rfl hnot
    exact absurd h hnot
  cases steps_of_step hs with
  | cancel => exact h
  | playing hphase => exact hne hphase id
  | continues => exact h
  | pends _ hphase => exact hne hphase id
  | yields _ hphase => exact hne hphase id
  | suspends hphase => exact hne hphase id
  | _ => trivial

/-- The main loop ends on an error. -/
lemma Stream.over_of_error {s s' : ServiceState (Except AnyhowError Unit)} {err : ErrorMessage}
    (hs : Stream.mainLoop.step s (.branch (.message (.error err))) = some s') :
    s'.phase.Over := by
  cases PipelineService.steps_of_step hs with
  | continues _ hcontinues => cases hcontinues
  | breaks => trivial

/-- The payloader is linked to the new pad, or an error is posted. -/
lemma parsebinPadAdded_cases {π : Type} (peer : Option π) (srcPad : π) (gst : PadCalls) :
    parsebinPadAdded peer srcPad gst = (some srcPad, []) ∨
      ∃ peer' err, parsebinPadAdded peer srcPad gst = (peer', [.error err]) := by
  simp only [parsebinPadAdded]
  rcases hlink : linkPad (if gst.unlink then none else peer) srcPad gst with ⟨err | ⟨⟩, peer'⟩
  · exact Or.inr ⟨_, _, rfl⟩
  · unfold linkPad at hlink
    split at hlink
    · cases hlink
    · obtain ⟨-, rfl⟩ := Prod.mk.inj hlink
      exact Or.inl rfl
    · cases hlink

namespace StreamWithPipeline

variable {π : Type} [DecidableEq π] {s s' : StreamWithPipeline π} {a : PadAction π} {n : ℕ}

/-- Every step of the pipeline with its main loop, with its guards and its outcome. -/
inductive Steps (s : StreamWithPipeline π) : PadAction π → StreamWithPipeline π → Prop
  | dropped {a : PadAction π} {lastPad : Option π} : s.mainLoop.phase.Over →
      a.readsBus = false → s.Steps a { s with lastPad }
  | source {srcPad : π} {gst : PadCalls} :
      s.Steps (.urisourcebinPadAdded srcPad gst)
        { s with parsebin := P2PRadio.urisourcebinPadAdded s.parsebin srcPad gst }
  | relinked {srcPad : π} {gst : PadCalls} :
      s.Steps (.parsebinPadAdded srcPad gst)
        { s with rtpopuspay := some srcPad, lastPad := some srcPad }
  | failed {srcPad : π} {gst : PadCalls} {peer : Option π} {err : ErrorMessage} :
      s.Steps (.parsebinPadAdded srcPad gst)
        { s with rtpopuspay := peer, bus := s.bus ++ [.error err], lastPad := some srcPad }
  | padRemoved {pad : π} :
      s.Steps (.padRemoved pad)
        { s with
          parsebin := removePad s.parsebin pad
          rtpopuspay := removePad s.rtpopuspay pad
          lastPad := removePad s.lastPad pad }
  | post {msg : BusMessage} : s.Steps (.post msg) { s with bus := s.bus ++ [msg] }
  | reads {msg : BusMessage} {bus : List BusMessage}
      {mainLoop : ServiceState (Except AnyhowError Unit)} : s.bus = msg :: bus →
      Stream.mainLoop.step s.mainLoop (.branch (.message msg)) = some mainLoop →
      s.Steps (.mainLoop (.branch (.message msg))) { s with bus, mainLoop }
  | mainLoop {a : ServiceAction MainLoopBranch}
      {mainLoop : ServiceState (Except AnyhowError Unit)} :
      (PadAction.mainLoop a : PadAction π).readsBus = false →
      Stream.mainLoop.step s.mainLoop a = some mainLoop → s.Steps (.mainLoop a) { s with mainLoop }

/-- **Step inversion.** -/
lemma steps_of_step (hs : s.step a = some s') : s.Steps a s' := by
  cases a with
  | urisourcebinPadAdded srcPad gst =>
    simp only [step] at hs
    split at hs
    · next hdropped =>
      obtain rfl := Option.some.inj hs
      exact .dropped (over_of_isDropped hdropped) rfl
    · obtain rfl := Option.some.inj hs
      exact .source
  | parsebinPadAdded srcPad gst =>
    simp only [step] at hs
    split at hs
    · next hdropped =>
      obtain rfl := Option.some.inj hs
      exact .dropped (over_of_isDropped hdropped) rfl
    · obtain rfl := Option.some.inj hs
      rcases parsebinPadAdded_cases s.rtpopuspay srcPad gst with hadded | ⟨peer, err, hadded⟩
      · rw [hadded, List.append_nil]
        exact .relinked
      · rw [hadded]
        exact .failed
  | padRemoved pad =>
    obtain rfl := Option.some.inj hs
    exact .padRemoved
  | post msg =>
    obtain rfl := Option.some.inj hs
    exact .post
  | mainLoop a =>
    -- the message that the loop reads is the first one on the bus
    rcases a with _ | _ | (msg | _) | _ | _ | _ | _ | _
    case branch.message =>
      simp only [step] at hs
      split at hs
      · next first bus hbus =>
        obtain ⟨rfl, hs⟩ := Option.ite_none_right_eq_some.mp hs
        obtain ⟨mainLoop, hmainLoop, rfl⟩ := Option.map_eq_some_iff.mp hs
        exact .reads hbus hmainLoop
      · cases hs
    all_goals
      simp only [step] at hs
      obtain ⟨mainLoop, hmainLoop, rfl⟩ := Option.map_eq_some_iff.mp hs
      exact .mainLoop rfl hmainLoop

/-- Its main loop is that of `Backend/Pipelines.lean`, and keeps all that one keeps. -/
lemma simulates_mainLoop :
    Simulates (streamWithPipeline π) Stream.mainLoop.system StreamWithPipeline.mainLoop where
  init := rfl
  step s a s' hs := by
    cases steps_of_step hs with
    | @reads msg _ _ _ hmainLoop => exact Or.inr ⟨.branch (.message msg), hmainLoop⟩
    | @mainLoop a _ _ hmainLoop => exact Or.inr ⟨a, hmainLoop⟩
    | _ => exact Or.inl rfl

/-! ## Alarms -/

/-- The loop is over, or among the next `n` messages it reads is an error. -/
def Alarmed (s : StreamWithPipeline π) (n : ℕ) : Prop :=
  s.mainLoop.phase.Over ∨ ∃ err, .error err ∈ s.bus.take n

omit [DecidableEq π] in
lemma Alarmed.of_bus (h : s.Alarmed n) {bus : List BusMessage} (hbus : s'.bus = s.bus ++ bus)
    (hmainLoop : s.mainLoop.phase.Over → s'.mainLoop.phase.Over) : s'.Alarmed n := by
  rcases h with hover | ⟨err, herr⟩
  · exact Or.inl (hmainLoop hover)
  · refine Or.inr ⟨err, ?_⟩
    rw [hbus, List.take_append]
    exact List.mem_append_left _ herr

/-- Each message read brings the loop nearer to the error. -/
lemma Alarmed.step (h : s.Alarmed n) (hs : s.step a = some s') :
    s'.Alarmed (if a.readsBus then n - 1 else n) := by
  cases steps_of_step hs with
  | dropped hover => exact Or.inl hover
  | source => exact h
  | relinked => exact h
  | failed => exact h.of_bus rfl id
  | padRemoved => exact h
  | post => exact h.of_bus rfl id
  | @reads msg bus mainLoop hbus hmainLoop =>
    rcases h with hover | ⟨err, herr⟩
    · exact Or.inl (PipelineService.over_of_step hmainLoop hover)
    · rcases n with _ | n
      · exact absurd herr List.not_mem_nil
      · rw [hbus, List.take_succ_cons] at herr
        rcases List.mem_cons.mp herr with rfl | herr
        · exact Or.inl (Stream.over_of_error hmainLoop)
        · exact Or.inr ⟨err, herr⟩
  | mainLoop hreads hmainLoop =>
    rw [hreads]
    exact h.of_bus (List.append_nil _).symm (PipelineService.over_of_step hmainLoop)

/-- The payloader is linked to the last pad of `parsebin`, or the loop will hear of it. -/
def Follows (s : StreamWithPipeline π) : Prop :=
  s.rtpopuspay = s.lastPad ∨ ∃ n, s.Alarmed n

lemma Follows.step (h : s.Follows) (hs : s.step a = some s') : s'.Follows := by
  rcases h with hlinked | ⟨n, halarmed⟩
  · cases steps_of_step hs with
    | dropped hover => exact Or.inr ⟨0, Or.inl hover⟩
    | source => exact Or.inl hlinked
    | relinked => exact Or.inl rfl
    | @failed _ _ _ err =>
      refine Or.inr ⟨s.bus.length + 1, Or.inr ⟨err, ?_⟩⟩
      show .error err ∈ (s.bus ++ [BusMessage.error err]).take (s.bus.length + 1)
      rw [List.take_of_length_le (by simp)]
      exact List.mem_append_right _ (List.mem_singleton_self _)
    | @padRemoved pad => exact Or.inl (congrArg (removePad · pad) hlinked)
    | post => exact Or.inl hlinked
    | reads => exact Or.inl hlinked
    | mainLoop => exact Or.inl hlinked
  · exact Or.inr ⟨_, halarmed.step hs⟩

lemma follows_of_reachable (h : (streamWithPipeline π).Reachable s) : s.Follows :=
  h.invariant (P := Follows) (Or.inl rfl) fun _ _ _ _ hfollows hs => hfollows.step hs

/-- `parsebin` keeps its peer. -/
lemma parsebin_of_step {pad : π} (h : s.parsebin = some pad) (hs : s.step a = some s')
    (hkept : a ≠ .padRemoved pad) : s'.parsebin = some pad := by
  cases steps_of_step hs with
  | @source srcPad gst =>
    show P2PRadio.urisourcebinPadAdded s.parsebin srcPad gst = some pad
    rw [h]
    rfl
  | @padRemoved other =>
    have hne : some pad ≠ some other := fun heq => hkept (Option.some.inj heq ▸ rfl)
    show removePad s.parsebin other = some pad
    rw [h, removePad, if_neg hne]
  | _ => exact h

end StreamWithPipeline

/-- **The payloader follows `parsebin`, or the main loop ends.**  In every run, whatever pads come
and go and whatever GStreamer answers:

* while the main loop runs the pipeline is in `Playing`, and unless an error waits on its bus
  `rtpopuspay` is linked to the last pad that `parsebin` has added, if that pad is still there;
* if it is not, the loop is over by the time it has read the messages that wait on its bus;
* `parsebin` keeps the pad it is linked to until that pad is removed. -/
theorem payloader_follows_parsebin {π : Type} [DecidableEq π] (r : Run (streamWithPipeline π)) :
    (r.final.mainLoop.phase = .looping → r.final.mainLoop.pipeline = .playing ∧
      ((∀ err, .error err ∉ r.final.bus) → r.final.rtpopuspay = r.final.lastPad)) ∧
    (r.final.rtpopuspay ≠ r.final.lastPad → ∀ as s',
      (streamWithPipeline π).exec r.final as = some s' →
      r.final.bus.length ≤ as.countP PadAction.readsBus → s'.mainLoop.phase.Over) ∧
    (∀ pad as s', r.final.parsebin = some pad →
      (streamWithPipeline π).exec r.final as = some s' → .padRemoved pad ∉ as →
      s'.parsebin = some pad) := by
  have hfollows := StreamWithPipeline.follows_of_reachable r.visits_final.reachable
  have hsound := PipelineService.sound_of_reachable
    (StreamWithPipeline.simulates_mainLoop.reachable r.visits_final.reachable)
  refine ⟨fun hlooping => ⟨(hsound.running (Or.inl hlooping)).2, fun hquiet => ?_⟩,
    fun hunlinked as s' hexec hread => ?_, fun pad as s' hlinked hexec hkept => ?_⟩
  · rcases hfollows with hlinked | ⟨n, hover | ⟨err, herr⟩⟩
    · exact hlinked
    · rw [hlooping] at hover
      exact hover.elim
    · exact absurd (List.mem_of_mem_take herr) (hquiet err)
  · have halarmed : r.final.Alarmed r.final.bus.length := by
      rcases hfollows with hlinked | ⟨n, hover | ⟨err, herr⟩⟩
      · exact absurd hlinked hunlinked
      · exact Or.inl hover
      · refine Or.inr ⟨err, ?_⟩
        rw [List.take_length]
        exact List.mem_of_mem_take herr
    have hend := System.exec_countdown (P := StreamWithPipeline.Alarmed) halarmed
      (fun t a t' m _ h hs => h.step hs) hexec
    rw [Nat.sub_eq_zero_of_le hread] at hend
    rcases hend with hover | ⟨err, herr⟩
    · exact hover
    · exact absurd herr List.not_mem_nil
  · refine System.exec_invariant (P := fun t : StreamWithPipeline π => t.parsebin = some pad)
      hlinked (fun t a t' ha h hs => ?_) hexec
    exact StreamWithPipeline.parsebin_of_step h hs fun heq => hkept (heq ▸ ha)

end P2PRadio
