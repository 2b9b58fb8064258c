import P2PRadio.Rpc.IcyEncoder
import P2PRadio.Support.Broadcast
import P2PRadio.Support.Transition

/-!
# The muxer and the listeners of a stream

The muxer's `new_sample` callback (`src/backend/ogg_dec.rs`) caches the Ogg header pages and
broadcasts every page; `stream_handler` and `response_stream` (`src/rpc/mod.rs`) give a joining
listener a copy of the cache, followed by what the channel broadcasts from then on.  The two
share the lock on the headers.

A step is one effect of one party.  `Guard` says who holds the lock and how far it has come in
its critical section, so a party that waits for the lock takes no step.  What needs no lock
(a listener polling its body, the bridge setting the title, a listener leaving) happens at any
time.  `samples`, `joinedAt` and `items` record the past; no step reads them.
-/

namespace P2PRadio

open Broadcast Transition

/-- A buffer of the muxer: an Ogg page, and whether its `HEADER` flag is set. -/
structure Sample where
  isHeader : Bool
  bytes : Bytes
  deriving DecidableEq, Repr

inductive BroadcastStreamRecvError where
  | lagged (missed : ℕ)
  deriving DecidableEq, Repr

/-- The error of a body, with its context. -/
structure StreamError where
  context : String
  source : BroadcastStreamRecvError
  deriving DecidableEq, Repr

/-- The error of a body whose listener has lagged. -/
def lagError (missed : ℕ) : StreamError where
  context := "Audio receiver lagged; reconnect to restart the stream"
  source := .lagged missed

def icyMetaint : ℕ := 8192

/-- `IcyEncoder::new(ICY_METAINT)` -/
def handlerEncoder : IcyEncoder := (IcyEncoder.new icyMetaint).get rfl

/-! ## Listeners -/

/-- A listener's body: the headers still to be sent, the receiver's position in the channel,
and the encoder. -/
structure Listener where
  icyRequested : Bool
  initial : List Bytes
  next : ℕ
  icy : IcyEncoder := handlerEncoder
  connected : Bool := true
  /-- The frames the body has yielded. -/
  body : List (Except StreamError Bytes) := []
  /-- The items the frames were made from, each with the title in force. -/
  items : List (String × Except StreamError Bytes) := []
  /-- How many samples had been broadcast when the listener joined. -/
  joinedAt : ℕ

/-- The next item of `initial.chain(live)`, if one is ready. -/
def Listener.nextItem (l : Listener) (dec : Channel Bytes) :
    Option (Except StreamError Bytes × Listener) :=
  match l.initial with
  | header :: rest => some (.ok header, { l with initial := rest })
  | [] =>
    match dec.recv l.next with
    | (.value bytes, next) => some (.ok bytes, { l with next })
    | (.lagged missed, next) => some (.error (lagError missed), { l with next })
    | (.empty, _) => none

/-- Poll the body once: it yields the frame of its next item, or nothing yet. -/
def Listener.poll (l : Listener) (dec : Channel Bytes) (title : String) : Listener :=
  match l.nextItem dec with
  | none => l
  | some (item, l) =>
    let yielded := frame l.icyRequested l.icy title item
    { l with
      icy := yielded.2
      body := l.body ++ [yielded.1]
      items := l.items ++ [(title, item)] }

/-! ## The lock on the headers -/

/-- How far the callback has come since it took the lock. -/
inductive MuxerStage where
  | locked
  | cached
  | sent
  deriving DecidableEq, Repr

/-- Who holds the lock on the headers. -/
inductive Guard where
  | muxer (stage : MuxerStage) (sample : Sample)
  | joinLocked (icyRequested : Bool)
  | joinCloned (icyRequested : Bool) (headers : List Bytes)
  | joinSubscribed (icyRequested : Bool) (headers : List Bytes) (next : ℕ)
  deriving DecidableEq, Repr

/-- What the callback does to the cache and to `last_was_header`. -/
def cacheHeader (cachedHeaders : List Bytes) (lastWasHeader : Bool) (sample : Sample) :
    List Bytes × Bool :=
  if sample.isHeader then
    ((if lastWasHeader then cachedHeaders else []) ++ [sample.bytes], true)
  else (cachedHeaders, false)

structure StreamService where
  guard : Option Guard := none
  headers : List Bytes := []
  lastWasHeader : Bool := false
  dec : Channel Bytes
  title : String := ""
  listeners : List Listener := []
  /-- The samples broadcast so far. -/
  samples : List Sample := []

/-- `dec_tx.send`, which stores nothing when there is no receiver. -/
def StreamService.broadcast (s : StreamService) (sample : Sample) : StreamService where
  guard := s.guard
  headers := s.headers
  lastWasHeader := s.lastWasHeader
  dec := if s.listeners.any (·.connected) then s.dec.send sample.bytes else s.dec
  title := s.title
  listeners := s.listeners
  samples := s.samples ++ [sample]

inductive StreamAction where
  /-- A callback returns an error before it reaches the lock. -/
  | callbackFails
  | muxerLocks (sample : Sample)
  | muxerCaches
  | muxerSends
  | muxerUnlocks
  | joinLocks (icyRequested : Bool)
  | joinClones
  | joinSubscribes
  | joinUnlocks
  | poll (i : ℕ)
  /-- A listener goes away: its body is dropped, and the receiver in it. -/
  | leave (i : ℕ)
  | setTitle (title : String)
  deriving DecidableEq, Repr

def StreamService.step (s : StreamService) : StreamAction → Option StreamService
  | .callbackFails => some s
  | .muxerLocks sample =>
    if s.guard = none then some { s with guard := some (.muxer .locked sample) } else none
  | .muxerCaches =>
    match s.guard with
    | some (.muxer .locked sample) =>
      let cached := cacheHeader s.headers s.lastWasHeader sample
      some { s with
        guard := some (.muxer .cached sample), headers := cached.1, lastWasHeader := cached.2 }
    | _ => none
  | .muxerSends =>
    match s.guard with
    | some (.muxer .cached sample) =>
      some { s.broadcast sample with guard := some (.muxer .sent sample) }
    | _ => none
  | .muxerUnlocks =>
    match s.guard with
    | some (.muxer .sent _) => some { s with guard := none }
    | _ => none
  | .joinLocks icyRequested =>
    if s.guard = none then some { s with guard := some (.joinLocked icyRequested) } else none
  | .joinClones =>
    match s.guard with
    | some (.joinLocked icyRequested) =>
      some { s with guard := some (.joinCloned icyRequested s.headers) }
    | _ => none
  | .joinSubscribes =>
    match s.guard with
    | some (.joinCloned icyRequested headers) =>
      some { s with guard := some (.joinSubscribed icyRequested headers s.dec.tail) }
    | _ => none
  | .joinUnlocks =>
    match s.guard with
    | some (.joinSubscribed icyRequested headers next) =>
      let listener : Listener :=
        { icyRequested, initial := headers, next, joinedAt := s.samples.length }
      some { s with guard := none, listeners := s.listeners ++ [listener] }
    | _ => none
  | .poll i =>
    match s.listeners[i]? with
    | some l =>
      if l.connected then some { s with listeners := s.listeners.set i (l.poll s.dec s.title) }
      else none
    | none => none
  | .leave i =>
    match s.listeners[i]? with
    | some l => some { s with listeners := s.listeners.set i { l with connected := false } }
    | none => none
  | .setTitle title => some { s with title }

/-- The stream of a listener node, over a channel of any capacity. -/
def streamService (capacity : ℕ+) : System StreamService StreamAction where
  init := { dec := .new capacity }
  step := StreamService.step

end P2PRadio
