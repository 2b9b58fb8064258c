import P2PRadio.P2p.Codec
import P2PRadio.Support.Transition
import P2PRadio.Utils

/-!
# The services that run a pipeline

`DecodingBackend::run` (`src/backend/mod.rs`), which drives `run_dec_stream` of
`src/backend/ogg_dec.rs`, and `Stream::main_loop` of `src/backend/icecast_ogg.rs`.  Both set
their pipeline to `Playing`, wait for events in a loop until one of them ends it, and set the
pipeline to `Null`.

They differ in what their loops wait for, and in that the decoder runs under
`run_until_cancelled`.  That returns `None` without a look at the decoder if the token has fired
before.  Otherwise every poll polls the decoder first, and looks at the token only when the
decoder is still pending: if the token has fired by then it drops the decoder and returns `None`.
So a token that fires while the decoder is suspended is seen by the decoder's own loop, in the
poll that follows, and one that fires between the two looks of a poll is not.

GStreamer is not part of the repository: the actions carry its answers.  A change of state that
it refuses leaves the pipeline as it is, and so does dropping a pipeline.
-/

namespace P2PRadio

open Transition

/-! ## The bus -/

inductive BusMessage where
  | eos
  | error (err : ErrorMessage)
  | tag (title : Option String)
  | other
  deriving DecidableEq, Repr

/-- `Stream::process_message`: whether the pipeline has ended.  What becomes of a title it sends
is in `Relay/Pipeline.lean`. -/
def processMessage : BusMessage → Except ErrorMessage Bool
  | .eos => .ok true
  | .error err => .error err
  | .tag _ => .ok false
  | .other => .ok false

/-! ## The loops -/

/-- Both loops go on after `Ok(false)` only. -/
def loopBreaks {ε : Type} : Except ε Bool → Bool
  | .ok false => false
  | _ => true

namespace OggDec

def processMessage : BusMessage → Except AnyhowError Bool
  | .eos => .ok true
  | .error err => .error (.bus err)
  | _ => .ok false

/-- What GStreamer answers to the calls of `process_bytes`. -/
structure BufferCalls where
  withSize : ℕ → Except String Unit
  getMut : Bool
  mapWritable : Bool
  pushBuffer : Bytes → Except FlowError Unit

/-- `process_bytes`.  The buffer has the size of what is copied into it. -/
def processBytes (gst : BufferCalls) (bytes : Bytes) : Except AnyhowError Bool := do
  (gst.withSize bytes.length).mapError .bool
  if !gst.getMut then throw (.flow .eos)
  if !gst.mapWritable then throw (.flow .error)
  (gst.pushBuffer bytes).mapError .flow
  return false

/-- The branches of the `select!` of `run_loop`. -/
inductive Branch where
  | message (msg : BusMessage)
  | packet (bytes : Bytes) (gst : BufferCalls)
  | cancelled

def runLoop : Branch → Except AnyhowError Bool
  | .message msg => processMessage msg
  | .packet bytes gst => processBytes gst bytes
  | .cancelled => .ok true

def Branch.waitsForToken : Branch → Bool
  | .cancelled => true
  | _ => false

/-- What a branch takes from tokio's budget for a poll: `recv` of an `mpsc` channel takes one. -/
def Branch.cost : Branch → ℕ
  | .packet _ _ => 1
  | _ => 0

end OggDec

/-- The branches of the `select!` of `main_loop`. -/
inductive MainLoopBranch where
  | message (msg : BusMessage)
  | cancelled

def MainLoopBranch.breaks : MainLoopBranch → Bool
  | .message msg => loopBreaks (processMessage msg)
  | .cancelled => true

def MainLoopBranch.waitsForToken : MainLoopBranch → Bool
  | .cancelled => true
  | .message _ => false

/-! ## The services -/

inductive GstState where
  | null
  | ready
  | paused
  | playing
  deriving DecidableEq, Repr

/-- How far a service has got. -/
inductive Phase (ρ : Type) where
  | starting
  /-- In the loop's `select!`: suspended there, or polled. -/
  | looping
  /-- A poll of the loop has ended without a result, and `run_until_cancelled` is about to look at
  the token, to return `ret` if it has fired. -/
  | pending (ret : ρ)
  /-- The loop is over, and the pipeline not yet set to `Null`. -/
  | ended
  | returned (ret : ρ)

/-- What tokio lets a task do in one poll before its futures make it yield. -/
def coopBudget : ℕ := 128

structure ServiceState (ρ : Type) where
  cancelled : Bool := false
  pipeline : GstState
  phase : Phase ρ := .starting
  /-- What is left of the budget for this poll. -/
  budget : ℕ := coopBudget
  /-- GStreamer has accepted the change to `Playing`.  No step reads it. -/
  wasPlaying : Bool := false

/-- A service by what distinguishes it: the branches `β` of its loop and what it returns. -/
structure PipelineService (β ρ : Type) where
  /-- The state the pipeline has been created in. -/
  created : GstState
  created_ne_playing : created ≠ .playing
  /-- Whether the loop ends after a branch. -/
  breaks : β → Bool
  waitsForToken : β → Bool
  cost : β → ℕ
  /-- What the service makes of the result of its function. -/
  result : Except AnyhowError Unit → ρ
  /-- What it returns when its function is dropped, if it runs under `run_until_cancelled`. -/
  dropped : Option ρ

inductive ServiceAction (β : Type) where
  /-- The token fires. -/
  | cancel
  | setPlaying (accepted : Bool)
  | branch (b : β)
  /-- A poll of the loop finds no branch ready. -/
  | pends
  /-- The budget for the poll is used up, and `select!` looks at no branch. -/
  | yields
  /-- `run_until_cancelled` sees that the token has not fired, and the service is suspended. -/
  | suspends
  | setNull (accepted : Bool)
  /-- `run_until_cancelled` sees that it has, and drops the function. -/
  | drop

namespace PipelineService

variable {β ρ : Type} (svc : PipelineService β ρ)

def step (s : ServiceState ρ) : ServiceAction β → Option (ServiceState ρ)
  | .cancel => some { s with cancelled := true }
  | .setPlaying accepted =>
    match s.phase with
    | .starting =>
      if accepted then some { s with pipeline := .playing, phase := .looping, wasPlaying := true }
      else some { s with phase := .returned (svc.result (.error .stateChange)) }
    | _ => none
  | .branch b =>
    match s.phase with
    | .looping =>
      if svc.dropped.isSome && s.budget = 0 || svc.waitsForToken b && !s.cancelled then none
      else
        let s := { s with budget := s.budget - svc.cost b }
        if svc.breaks b then some { s with phase := .ended } else some s
    | _ => none
  -- Without `run_until_cancelled` nothing depends on where a poll ends.
  | .pends =>
    match svc.dropped, s.phase with
    | some ret, .looping => if s.cancelled then none else some { s with phase := .pending ret }
    | _, _ => none
  | .yields =>
    match svc.dropped, s.phase with
    | some ret, .looping => if s.budget = 0 then some { s with phase := .pending ret } else none
    | _, _ => none
  | .suspends =>
    match s.phase with
    | .pending _ =>
      if s.cancelled then none else some { s with phase := .looping, budget := coopBudget }
    | _ => none
  -- No `await` stands between the end of the loop and this change.
  | .setNull accepted =>
    match s.phase with
    | .ended =>
      if accepted then some { s with pipeline := .null, phase := .returned (svc.result (.ok ())) }
      else some { s with phase := .returned (svc.result (.error .stateChange)) }
    | _ => none
  | .drop =>
    match svc.dropped, s.phase with
    | some ret, .starting => if s.cancelled then some { s with phase := .returned ret } else none
    | _, .pending ret => if s.cancelled then some { s with phase := .returned ret } else none
    | _, _ => none

def system : System (ServiceState ρ) (ServiceAction β) where
  init := { pipeline := svc.created }
  step := svc.step

end PipelineService

/-- `create_opus_pipeline` leaves the pipeline in `Ready`. -/
def DecodingBackend.run : PipelineService OggDec.Branch (TaskRet AnyhowError) where
  created := .ready
  created_ne_playing := nofun
  breaks b := loopBreaks (OggDec.runLoop b)
  waitsForToken := OggDec.Branch.waitsForToken
  cost := OggDec.Branch.cost
  result
    | .ok () => some (.error (.msg "Pipeline finished unexpectedly"))
    | .error err => some (.error err)
  dropped := some none

def Stream.mainLoop : PipelineService MainLoopBranch (Except AnyhowError Unit) where
  created := .null
  created_ne_playing := nofun
  breaks := MainLoopBranch.breaks
  waitsForToken := MainLoopBranch.waitsForToken
  cost _ := 0
  result := id
  dropped := none

end P2PRadio
