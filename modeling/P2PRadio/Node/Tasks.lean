import P2PRadio.Backend.Pipelines
import P2PRadio.Support.Supervision

/-!
# The tasks of a node

`Node::start` runs a tree of tasks.  A streamer's (`src/node.rs`, `src/rpc/mod.rs`,
`src/backend/mod.rs`) has its swarm, its server with the HTTP listener under it, and its
encoding backend with the main loop and the message loop under it; a listener's has its swarm
and its server with the decoding backend, the HTTP server, the bridge and the task that waits
for the RPC server under it.

Every task waits in a `select!`; what is translated from the source is which of its branches
are ready and what the task returns then.  Of the branches that neither return nor end a loop
one matters: a listener's swarm that hands a message on to a full queue waits for the queue,
and does not see the token meanwhile.

The tasks may fail at any time: each of them may panic, the RPC server may stop, and the
pipelines run as in `Backend/Pipelines.lean`, with whatever GStreamer answers and reports.  The
RPC server is not told of the token.  The token may also be fired by `main`, which does so once
`Node::start` has returned.
-/

namespace P2PRadio

open Transition Supervision

/-- A branch that is ready under a condition. -/
def readyIf {ρ : Type} (ready : Bool) (ret : ρ) : List ρ := if ready then [ret] else []

lemma mem_readyIf {ρ : Type} {ready : Bool} {ret ret' : ρ} :
    ret' ∈ readyIf ready ret ↔ ready ∧ ret' = ret := by
  cases ready <;> simp [readyIf]

/-- A branch that waits for another task's handle. -/
def readyOn {ρ σ : Type} (handle : Option (Except JoinError σ))
    (ret : Except JoinError σ → ρ) : List ρ :=
  handle.toList.map ret

lemma mem_readyOn {ρ σ : Type} {handle : Option (Except JoinError σ)}
    {ret : Except JoinError σ → ρ} {ret' : ρ} :
    ret' ∈ readyOn handle ret ↔ ∃ res, handle = some res ∧ ret res = ret' := by
  simp [readyOn]

/-! ## The streamer -/

/-- The two tasks `EncodingBackend::process_url` waits for. -/
inductive EncodingLoop where
  | msgLoop
  | mainLoop
  deriving DecidableEq, Repr

def EncodingLoop.processUrl : EncodingLoop → Except AppError Empty
  | .msgLoop => .error (.anyhow (.msg "Message loop encoding terminated"))
  | .mainLoop => .error (.anyhow (.msg "Main loop encoding terminated"))

/-- `EncodingBackend::run`, by the loop its `select!` picks. -/
def EncodingLoop.run (picked : EncodingLoop) : TaskRet AppError := some picked.processUrl

inductive StreamerTask where
  | swarm
  | serverListener
  | server
  | mainLoop
  | msgLoop
  | backend
  /-- `Node::start` itself. -/
  | start
  deriving DecidableEq

instance : Fintype StreamerTask where
  elems := {.swarm, .serverListener, .server, .mainLoop, .msgLoop, .backend, .start}
  complete t := by cases t <;> decide

def StreamerTask.Ret : StreamerTask → Type
  | swarm | serverListener => TaskRet Empty
  | server | backend | start => TaskRet AppError
  | mainLoop => Unit
  | msgLoop => Except AppError Unit

structure StreamerEnv where
  rpcStopped : Bool := false
  /-- The message loop had something to send after the swarm had dropped the receiver. -/
  sendFailed : Bool := false
  /-- `main_loop`, which holds the token. -/
  mainLoop : ServiceState (Except AnyhowError Unit) := Stream.mainLoop.system.init

def StreamerEnv.cancelled (env : StreamerEnv) : Bool := env.mainLoop.cancelled

inductive StreamerEnvAction where
  /-- The token fires. -/
  | cancel
  | rpcStops
  | sendFails
  | mainLoop (a : ServiceAction MainLoopBranch)

abbrev StreamerGroup := TaskGroup StreamerTask.Ret StreamerEnv JoinError

namespace StreamerGroup

def envStep (s : StreamerGroup) : StreamerEnvAction → Option StreamerEnv
  | .cancel => some { s.env with mainLoop := { s.env.mainLoop with cancelled := true } }
  | .rpcStops => some { s.env with rpcStopped := true }
  | .sendFails =>
    if (s.handle .swarm).isSome then some { s.env with sendFailed := true } else none
  | .mainLoop a =>
    if (s.handle .mainLoop).isNone then
      (Stream.mainLoop.step s.env.mainLoop a).map fun mainLoop => { s.env with mainLoop }
    else none

def ready (s : StreamerGroup) : (t : StreamerTask) → List t.Ret
  | .swarm => readyIf s.env.cancelled none
  | .serverListener => readyIf s.env.cancelled none
  | .server =>
    readyIf s.env.rpcStopped (some (.error .taskExited)) ++
      readyOn (s.handle .serverListener) (handleToMainHandle Empty.elim) ++
      readyIf s.env.cancelled none
  -- The loop's own result is only logged.
  | .mainLoop =>
    match s.env.mainLoop.phase with
    | .returned _ => [()]
    | _ => []
  -- The `else` branch runs once the main loop has dropped the pipeline and the title's sender.
  | .msgLoop =>
    readyIf s.env.sendFailed (.error (.other "channel closed")) ++
      readyOn (s.handle .mainLoop) fun _ => .ok ()
  | .backend =>
    readyOn (s.handle .msgLoop) (fun _ => EncodingLoop.msgLoop.run) ++
      readyOn (s.handle .mainLoop) fun _ => EncodingLoop.mainLoop.run
  | .start =>
    readyOn (s.handle .swarm) handleLoopCannotFailHandle ++
      readyOn (s.handle .server) (handleToMainHandle id) ++
      readyOn (s.handle .backend) (handleToMainHandle id)

end StreamerGroup

/-- `Node::start` of a streamer, once the node has been built. -/
def streamerNode : Program StreamerTask.Ret StreamerEnv StreamerEnvAction JoinError where
  initial := {}
  envStep := StreamerGroup.envStep
  ready := StreamerGroup.ready
  spawned t := t ≠ .start

/-! ## The listener -/

inductive ListenerTask where
  | swarm
  | backend
  | axumServer
  | gossipBackendBridge
  /-- The task that waits for the RPC server to stop. -/
  | serverHandle
  | server
  | start
  deriving DecidableEq

instance : Fintype ListenerTask where
  elems := {.swarm, .backend, .axumServer, .gossipBackendBridge, .serverHandle, .server, .start}
  complete t := by cases t <;> decide

def ListenerTask.Ret : ListenerTask → Type
  | swarm | axumServer | gossipBackendBridge => TaskRet Empty
  | backend => TaskRet AnyhowError
  | serverHandle => Unit
  | server | start => TaskRet AppError

structure ListenerEnv where
  rpcStopped : Bool := false
  /-- The swarm's loop waits in `gossip_sub_tx.send`, outside its `select!`. -/
  sending : Bool := false
  /-- `DecodingBackend::run`, which holds the token. -/
  decoder : ServiceState (TaskRet AnyhowError) := DecodingBackend.run.system.init

def ListenerEnv.cancelled (env : ListenerEnv) : Bool := env.decoder.cancelled

inductive ListenerEnvAction where
  /-- The token fires. -/
  | cancel
  | rpcStops
  | decoder (a : ServiceAction OggDec.Branch)
  /-- The swarm hands a message on and finds the queue full. -/
  | sends
  /-- The bridge makes room in the queue. -/
  | sent
  /-- The bridge has ended and dropped the receiver. -/
  | sendFails

abbrev ListenerGroup := TaskGroup ListenerTask.Ret ListenerEnv JoinError

namespace ListenerGroup

def envStep (s : ListenerGroup) : ListenerEnvAction → Option ListenerEnv
  | .cancel => some { s.env with decoder := { s.env.decoder with cancelled := true } }
  | .rpcStops => some { s.env with rpcStopped := true }
  | .decoder a =>
    if (s.handle .backend).isNone then
      (DecodingBackend.run.step s.env.decoder a).map fun decoder => { s.env with decoder }
    else none
  | .sends =>
    if (s.handle .swarm).isNone ∧ ¬ s.env.sending then some { s.env with sending := true }
    else none
  | .sent =>
    if (s.handle .gossipBackendBridge).isNone ∧ s.env.sending then
      some { s.env with sending := false }
    else none
  | .sendFails =>
    if (s.handle .gossipBackendBridge).isSome ∧ s.env.sending then
      some { s.env with sending := false }
    else none

def ready (s : ListenerGroup) : (t : ListenerTask) → List t.Ret
  | .swarm => readyIf (s.env.cancelled && !s.env.sending) none
  | .backend =>
    match s.env.decoder.phase with
    | .returned ret => [ret]
    | _ => []
  | .axumServer => readyIf s.env.cancelled none
  | .gossipBackendBridge => readyIf s.env.cancelled none
  | .serverHandle => readyIf s.env.rpcStopped ()
  | .server =>
    readyOn (s.handle .backend) (handleToMainHandle .anyhow) ++
      readyOn (s.handle .axumServer) (handleToMainHandle Empty.elim) ++
      readyOn (s.handle .gossipBackendBridge) handleLoopCannotFailHandle ++
      readyOn (s.handle .serverHandle) fun _ => some (.error .taskExited)
  | .start =>
    readyOn (s.handle .swarm) handleLoopCannotFailHandle ++
      readyOn (s.handle .server) (handleToMainHandle id)

end ListenerGroup

/-- `Node::start` of a listener, once the node has been built. -/
def listenerNode : Program ListenerTask.Ret ListenerEnv ListenerEnvAction JoinError where
  initial := {}
  envStep := ListenerGroup.envStep
  ready := ListenerGroup.ready
  spawned t := t ≠ .start

end P2PRadio
