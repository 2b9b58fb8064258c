import P2PRadio.Rpc.StreamHandler

/-!
# Joining listeners

A listener that joins while the muxer is at work gets every header of the current stream
exactly once and loses no sample without being told.  What it is owed is fixed by the moment
it joins: the latest run of headers broadcast until then, followed by every sample broadcast
from then on (`Listener.owed`).

The invariant ties the two halves together.  The cache and `last_was_header` always describe
the samples broadcast, up to the one the callback has cached and not yet sent
(`StreamService.cachedSamples`); a connected listener that was never told it lagged has
received, or has still before it in its copy of the cache and in the channel, exactly what it
is owed.  `joining_listener_gets_all` is the result.
-/

namespace P2PRadio

open Broadcast Transition

/-! ## What a listener is owed -/

/-- The latest maximal run of consecutive headers. -/
def latestHeaders (samples : List Sample) : List Bytes :=
  ((samples.rdropWhile (!·.isHeader)).rtakeWhile (·.isHeader)).map Sample.bytes

/-- The last sample is a header. -/
def endsInHeader (samples : List Sample) : Bool := samples.getLast?.any (·.isHeader)

/-- The headers of the moment a listener joins, then every sample after it. -/
def Listener.owed (l : Listener) (samples : List Sample) : List Bytes :=
  latestHeaders (samples.take l.joinedAt) ++ (samples.drop l.joinedAt).map Sample.bytes

/-- The values of a stream before its first error. -/
def okBeforeErr {ε α : Type*} : List (Except ε α) → List α
  | .ok v :: items => v :: okBeforeErr items
  | _ => []

/-- What the body has yielded before its first error. -/
def Listener.received (l : Listener) : List Bytes := okBeforeErr (l.items.map Prod.snd)

/-- The body has yielded an error. -/
def Listener.Lagged (l : Listener) : Prop := ∃ item ∈ l.items, item.2.toOption = none

/-- A poll would find nothing. -/
def Listener.Drained (l : Listener) (dec : Channel Bytes) : Prop := l.nextItem dec = none

instance (l : Listener) : Decidable l.Lagged :=
  inferInstanceAs (Decidable (∃ item ∈ l.items, item.2.toOption = none))

instance (l : Listener) (dec : Channel Bytes) : Decidable (l.Drained dec) :=
  inferInstanceAs (Decidable (_ = none))

/-! ## The cache -/

@[simp] lemma endsInHeader_concat (samples : List Sample) (x : Sample) :
    endsInHeader (samples ++ [x]) = x.isHeader := by
  rw [endsInHeader, List.getLast?_concat]
  rfl

/-- A header extends the run it follows, or else starts a new one. -/
lemma latestHeaders_concat_header {samples : List Sample} {x : Sample} (hx : x.isHeader) :
    latestHeaders (samples ++ [x]) =
      (if endsInHeader samples then latestHeaders samples else []) ++ [x.bytes] := by
  have hdrop : ∀ ys : List Sample, (ys ++ [x]).rdropWhile (!·.isHeader) = ys ++ [x] := by
    intro ys
    exact List.rdropWhile_concat_neg _ _ _ (by simp [hx])
  rw [latestHeaders, hdrop, List.rtakeWhile_concat_pos _ _ _ hx, List.map_append]
  congr 1
  induction samples using List.reverseRecOn with
  | nil => rfl
  | append_singleton ys y =>
    rw [endsInHeader_concat]
    by_cases hy : y.isHeader
    · rw [if_pos hy, latestHeaders, List.rdropWhile_concat_neg _ _ _ (by simp [hy])]
    · rw [if_neg hy, List.rtakeWhile_concat_neg _ _ _ hy, List.map_nil]

lemma latestHeaders_concat_other {samples : List Sample} {x : Sample} (hx : ¬ x.isHeader) :
    latestHeaders (samples ++ [x]) = latestHeaders samples := by
  rw [latestHeaders, List.rdropWhile_concat_pos _ _ _ (by simp [hx])]
  rfl

/-- The callback keeps the cache equal to the latest run of headers. -/
lemma cacheHeader_eq (samples : List Sample) (x : Sample) :
    cacheHeader (latestHeaders samples) (endsInHeader samples) x =
      (latestHeaders (samples ++ [x]), endsInHeader (samples ++ [x])) := by
  rw [cacheHeader, endsInHeader_concat]
  by_cases hx : x.isHeader
  · rw [if_pos hx, latestHeaders_concat_header hx, hx]
  · rw [if_neg hx, latestHeaders_concat_other hx]
    simpa using hx

/-! ## Values before an error -/

section OkBeforeErr

variable {ε α : Type*}

lemma okBeforeErr_append_of_ok {xs : List (Except ε α)} (h : ∀ err, .error err ∉ xs)
    (ys : List (Except ε α)) : okBeforeErr (xs ++ ys) = okBeforeErr xs ++ okBeforeErr ys := by
  induction xs with
  | nil => rfl
  | cons x xs ih =>
    rcases x with err | v
    · exact absurd List.mem_cons_self (h err)
    · have htail : ∀ err, .error err ∉ xs := fun err hmem => h err (List.mem_cons_of_mem _ hmem)
      rw [List.cons_append, okBeforeErr, okBeforeErr, ih htail, List.cons_append]

lemma okBeforeErr_append_of_err {xs : List (Except ε α)} {err : ε} (h : .error err ∈ xs)
    (ys : List (Except ε α)) : okBeforeErr (xs ++ ys) = okBeforeErr xs := by
  induction xs with
  | nil => exact absurd h List.not_mem_nil
  | cons x xs ih =>
    rcases x with e | v
    · rfl
    · have htail : .error err ∈ xs := by
        rcases List.mem_cons.mp h with h | h
        · cases h
        · exact h
      rw [List.cons_append, okBeforeErr, okBeforeErr, ih htail]

end OkBeforeErr

/-! ## The frames of a body -/

lemma frames_concat {ε : Type*} (icyRequested : Bool) (icy : IcyEncoder)
    (items : List (String × Except ε Bytes)) (title : String) (item : Except ε Bytes) :
    frames icyRequested icy (items ++ [(title, item)]) =
      ((frames icyRequested icy items).1 ++
        [(frame icyRequested (frames icyRequested icy items).2 title item).1],
        (frame icyRequested (frames icyRequested icy items).2 title item).2) := by
  induction items generalizing icy with
  | nil => rfl
  | cons first items ih =>
    obtain ⟨t, i⟩ := first
    rw [List.cons_append, frames, ih]
    rfl

/-- Without ICY the frames are the items themselves. -/
lemma frames_false {ε : Type*} (icy : IcyEncoder) (items : List (String × Except ε Bytes)) :
    (frames false icy items).1 = items.map Prod.snd := by
  induction items generalizing icy with
  | nil => rfl
  | cons first items ih =>
    obtain ⟨title, err | bytes⟩ := first
    · exact congrArg _ (ih icy)
    · exact congrArg _ (ih icy)

/-! ## One listener -/

/-- What a listener keeps, over the log of the channel and the samples broadcast. -/
structure Listener.Sound (l : Listener) (log : List Bytes) (samples : List Sample) : Prop where
  joinedAt_le : l.joinedAt ≤ samples.length
  next_le : l.next ≤ log.length
  received_prefix : l.received <+: l.owed samples
  /-- Received, still to be sent, still in the channel: together what it is owed. -/
  conserved : l.connected → ¬ l.Lagged →
    l.received ++ l.initial ++ log.drop l.next = l.owed samples
  body_eq : (l.body, l.icy) = frames l.icyRequested handlerEncoder l.items

namespace Listener

variable {l : Listener} {log : List Bytes} {samples : List Sample}

lemma owed_concat (h : l.joinedAt ≤ samples.length) (x : Sample) :
    l.owed (samples ++ [x]) = l.owed samples ++ [x.bytes] := by
  rw [owed, owed, List.take_append_of_le_length h, List.drop_append_of_le_length h,
    List.map_append, List.map_singleton, List.append_assoc]

/-- A listener that joins after these samples. -/
def joined (icyRequested : Bool) (log : List Bytes) (samples : List Sample) :
    Listener where
  icyRequested
  initial := latestHeaders samples
  next := log.length
  joinedAt := samples.length

/-- It is owed its copy of the cache. -/
lemma sound_joined (icyRequested : Bool) (log : List Bytes) (samples : List Sample) :
    Sound (joined icyRequested log samples) log samples where
  joinedAt_le := le_rfl
  next_le := le_rfl
  received_prefix := List.nil_prefix
  conserved _ _ := by
    show [] ++ latestHeaders samples ++ log.drop log.length =
      latestHeaders (samples.take samples.length) ++
        (samples.drop samples.length).map Sample.bytes
    rw [List.take_length, List.drop_length, List.drop_length, List.map_nil, List.nil_append]
  body_eq := rfl

/-- A broadcast that is stored reaches every connected listener's part of the channel. -/
lemma Sound.broadcast (h : l.Sound log samples) {log' : List Bytes} (x : Sample)
    (hlog : log' = log ++ [x.bytes] ∨ log' = log ∧ ¬ l.connected) :
    l.Sound log' (samples ++ [x]) := by
  have howed := owed_concat h.joinedAt_le x
  refine ⟨?_, ?_, ?_, ?_, h.body_eq⟩
  · rw [List.length_append]
    exact Nat.le_trans h.joinedAt_le (Nat.le_add_right _ _)
  · rcases hlog with rfl | ⟨rfl, -⟩
    · rw [List.length_append]
      exact Nat.le_trans h.next_le (Nat.le_add_right _ _)
    · exact h.next_le
  · rw [howed]
    exact h.received_prefix.trans (List.prefix_append _ _)
  · intro hconnected hlagged
    rcases hlog with rfl | ⟨-, hleft⟩
    · rw [howed, ← h.conserved hconnected hlagged, List.drop_append_of_le_length h.next_le,
        List.append_assoc, List.append_assoc, List.append_assoc]
    · exact absurd hconnected hleft

lemma Sound.leave (h : l.Sound log samples) : Sound { l with connected := false } log samples :=
  ⟨h.joinedAt_le, h.next_le, h.received_prefix, fun hc => absurd hc Bool.false_ne_true, h.body_eq⟩

/-- The body yields the frame of an item, and goes on from there. -/
def yield (l : Listener) (title : String) (item : Except StreamError Bytes)
    (initial : List Bytes) (next : ℕ) : Listener where
  icyRequested := l.icyRequested
  initial
  next
  icy := (frame l.icyRequested l.icy title item).2
  connected := l.connected
  body := l.body ++ [(frame l.icyRequested l.icy title item).1]
  items := l.items ++ [(title, item)]
  joinedAt := l.joinedAt

/-- **What a poll finds**: a header of the listener's copy of the cache, the next value of the
channel, how far the listener has fallen behind, or nothing. -/
lemma poll_cases {dec : Channel Bytes}
    (hdec : dec.Holds log) (hnext : l.next ≤ log.length) (title : String) :
    (∃ header rest, l.initial = header :: rest ∧
      l.poll dec title = l.yield title (.ok header) rest l.next) ∨
    (l.initial = [] ∧ log.length - dec.capacity ≤ l.next ∧
      ∃ bytes, log.drop l.next = bytes :: log.drop (l.next + 1) ∧
        l.poll dec title = l.yield title (.ok bytes) [] (l.next + 1)) ∨
    (l.initial = [] ∧ ∃ missed, 0 < missed ∧ l.next + missed = log.length - dec.capacity ∧
      l.poll dec title = l.yield title (.error (lagError missed)) [] (l.next + missed)) ∨
    (l.initial = [] ∧ l.next = log.length ∧ l.poll dec title = l) := by
  rcases hinitial : l.initial with _ | ⟨header, rest⟩
  · rcases hdec.recv_cases hnext with ⟨bytes, hrecv, hdrop⟩ | ⟨missed, hpos, hmissed, hrecv⟩ |
      ⟨hend, hrecv⟩
    · refine Or.inr (Or.inl ⟨rfl, ?_, bytes, hdrop, ?_⟩)
      · by_contra hlt
        rw [hdec.recv_of_lt (Nat.lt_of_not_le hlt)] at hrecv
        cases hrecv
      · simp [poll, nextItem, yield, hinitial, hrecv]
    · refine Or.inr (Or.inr (Or.inl ⟨rfl, missed, hpos, hmissed, ?_⟩))
      simp [poll, nextItem, yield, lagError, hinitial, hrecv]
    · refine Or.inr (Or.inr (Or.inr ⟨rfl, hend, ?_⟩))
      simp [poll, nextItem, hinitial, hrecv]
  · refine Or.inl ⟨header, rest, rfl, ?_⟩
    simp [poll, nextItem, yield, hinitial]

/-- The item that is yielded is taken from what is still before the listener, or tells that it has
lagged. -/
lemma Sound.yield (h : l.Sound log samples) (hconnected : l.connected) (title : String)
    {item : Except StreamError Bytes} {initial : List Bytes} {next : ℕ} (hnext : next ≤ log.length)
    (hmoved : ∀ bytes, item = .ok bytes →
      l.initial ++ log.drop l.next = bytes :: (initial ++ log.drop next)) :
    (l.yield title item initial next).Sound log samples := by
  have hmap : (l.items ++ [(title, item)]).map Prod.snd = l.items.map Prod.snd ++ [item] := by
    rw [List.map_append, List.map_singleton]
  have hbody : ∀ yielded, yielded = frame l.icyRequested l.icy title item →
      (l.body ++ [yielded.1], yielded.2) =
        frames l.icyRequested handlerEncoder (l.items ++ [(title, item)]) := by
    rintro _ rfl
    rw [frames_concat, ← h.body_eq]
  by_cases hlagged : l.Lagged
  · -- what comes after an error counts no more
    obtain ⟨⟨t, err | bytes⟩, herr, hnone⟩ := hlagged
    swap
    · cases hnone
    have hmem : .error err ∈ l.items.map Prod.snd := List.mem_map_of_mem (f := Prod.snd) herr
    refine ⟨h.joinedAt_le, hnext, ?_, fun _ hnot => ?_, hbody _ rfl⟩
    · show okBeforeErr ((l.items ++ [(title, item)]).map Prod.snd) <+: _
      rw [hmap, okBeforeErr_append_of_err hmem]
      exact h.received_prefix
    · exact absurd ⟨_, List.mem_append_left _ herr, rfl⟩ hnot
  · have hok : ∀ err, .error err ∉ l.items.map Prod.snd := by
      intro err hmem
      obtain ⟨⟨t, _⟩, hitems, rfl⟩ := List.mem_map.mp hmem
      exact hlagged ⟨_, hitems, rfl⟩
    have hconserved := h.conserved hconnected hlagged
    rw [received, List.append_assoc] at hconserved
    rcases item with err | bytes
    · refine ⟨h.joinedAt_le, hnext, ?_, fun _ hnot => ?_, hbody _ rfl⟩
      · show okBeforeErr ((l.items ++ [(title, Except.error err)]).map Prod.snd) <+: _
        rw [hmap, okBeforeErr_append_of_ok hok]
        show okBeforeErr (l.items.map Prod.snd) ++ [] <+: _
        rw [List.append_nil]
        exact h.received_prefix
      · exact absurd ⟨_, List.mem_append_right _ (List.mem_singleton_self _), rfl⟩ hnot
    · have hall : okBeforeErr (l.items.map Prod.snd ++ [.ok bytes]) ++
          (initial ++ log.drop next) = l.owed samples := by
        rw [← hconserved, hmoved bytes rfl, okBeforeErr_append_of_ok hok, List.append_assoc]
        rfl
      refine ⟨h.joinedAt_le, hnext, ?_, fun _ _ => ?_, hbody _ rfl⟩
      · show okBeforeErr ((l.items ++ [(title, Except.ok bytes)]).map Prod.snd) <+: l.owed samples
        rw [hmap, ← hall]
        exact List.prefix_append _ _
      · show okBeforeErr ((l.items ++ [(title, Except.ok bytes)]).map Prod.snd) ++ initial ++
          log.drop next = l.owed samples
        rw [hmap, List.append_assoc, hall]

lemma Sound.poll {dec : Channel Bytes} (hdec : dec.Holds log) (h : l.Sound log samples)
    (hconnected : l.connected) (title : String) : (l.poll dec title).Sound log samples := by
  rcases poll_cases hdec h.next_le title with ⟨header, rest, hinitial, hpoll⟩ |
    ⟨hinitial, -, bytes, hdrop, hpoll⟩ | ⟨-, missed, -, hmissed, hpoll⟩ | ⟨-, -, hpoll⟩
  · rw [hpoll]
    refine h.yield hconnected title h.next_le ?_
    rintro _ ⟨⟩
    rw [hinitial]
    rfl
  · rw [hpoll]
    refine h.yield hconnected title ?_ ?_
    · have hlen := congrArg List.length hdrop
      rw [List.length_drop, List.length_cons] at hlen
      omega
    · rintro _ ⟨⟩
      rw [hinitial, hdrop]
      rfl
  · rw [hpoll]
    refine h.yield hconnected title (by omega) ?_
    rintro _ ⟨⟩
  · rw [hpoll]
    exact h

/-- A drained listener has nothing before it. -/
lemma Sound.eq_of_drained {dec : Channel Bytes} (hdec : dec.Holds log) (h : l.Sound log samples)
    (hconnected : l.connected) (hlagged : ¬ l.Lagged) (hdrained : l.Drained dec) :
    l.received = l.owed samples := by
  have hconserved := h.conserved hconnected hlagged
  unfold Drained nextItem at hdrained
  split at hdrained
  · cases hdrained
  · next hinitial =>
    rcases hdec.recv_cases h.next_le with ⟨v, hrecv, -⟩ | ⟨missed, -, -, hrecv⟩ |
      ⟨hend, -⟩
    · rw [hrecv] at hdrained
      cases hdrained
    · rw [hrecv] at hdrained
      cases hdrained
    · rw [← hconserved, hinitial, hend, List.drop_length, List.append_nil, List.append_nil]

end Listener

/-! ## The service -/

/-- The samples the cache describes: those broadcast, and the one that is cached but not sent
yet. -/
def StreamService.cachedSamples (s : StreamService) : List Sample :=
  match s.guard with
  | some (.muxer .cached sample) => s.samples ++ [sample]
  | _ => s.samples

/-- What a join that holds the lock has read so far. -/
def Guard.Sound (log : List Bytes) (samples : List Sample) : Option Guard → Prop
  | some (.joinCloned _ headers) => headers = latestHeaders samples
  | some (.joinSubscribed _ headers next) => headers = latestHeaders samples ∧ next = log.length
  | _ => True

structure StreamService.Sound (s : StreamService) (log : List Bytes) : Prop where
  holds : s.dec.Holds log
  headers_eq : s.headers = latestHeaders s.cachedSamples
  lastWasHeader_eq : s.lastWasHeader = endsInHeader s.cachedSamples
  guard : Guard.Sound log s.samples s.guard
  listeners : ∀ l ∈ s.listeners, l.Sound log s.samples

namespace StreamService

variable {s s' : StreamService} {log : List Bytes}

lemma sound_init (capacity : ℕ+) : Sound { dec := .new capacity } [] where
  holds := Channel.holds_new capacity
  headers_eq := rfl
  lastWasHeader_eq := rfl
  guard := trivial
  listeners _ h := absurd h List.not_mem_nil

lemma cachedSamples_of_ne (h : ∀ sample, s.guard ≠ some (.muxer .cached sample)) :
    s.cachedSamples = s.samples := by
  unfold cachedSamples
  split
  · next sample hguard => exact absurd hguard (h sample)
  · rfl

/-- The lock changes hands, or its holder reads on, while the cache describes what was sent. -/
lemma Sound.setGuard (h : s.Sound log) {g : Option Guard}
    (hold : ∀ sample, s.guard ≠ some (.muxer .cached sample))
    (hnew : ∀ sample, g ≠ some (.muxer .cached sample)) (hg : Guard.Sound log s.samples g) :
    Sound { s with guard := g } log where
  holds := h.holds
  headers_eq := by
    rw [cachedSamples_of_ne hnew, ← cachedSamples_of_ne hold]
    exact h.headers_eq
  lastWasHeader_eq := by
    rw [cachedSamples_of_ne hnew, ← cachedSamples_of_ne hold]
    exact h.lastWasHeader_eq
  guard := hg
  listeners := h.listeners

lemma Sound.cacheHeader (h : s.Sound log) {sample : Sample}
    (hguard : s.guard = some (.muxer .locked sample)) :
    Sound { s with
      guard := some (.muxer .cached sample)
      headers := (cacheHeader s.headers s.lastWasHeader sample).1
      lastWasHeader := (cacheHeader s.headers s.lastWasHeader sample).2 } log := by
  have hcached : s.cachedSamples = s.samples := cachedSamples_of_ne (by simp [hguard])
  have hcache := cacheHeader_eq s.samples sample
  rw [← hcached, ← h.headers_eq, ← h.lastWasHeader_eq, hcached] at hcache
  exact ⟨h.holds, congrArg Prod.fst hcache, congrArg Prod.snd hcache, trivial, h.listeners⟩

lemma Sound.join (h : s.Sound log) {icyRequested : Bool} {headers : List Bytes} {next : ℕ}
    (hguard : s.guard = some (.joinSubscribed icyRequested headers next)) :
    Sound { s with
      guard := none
      listeners := s.listeners ++
        [{ icyRequested, initial := headers, next, joinedAt := s.samples.length }] } log := by
  obtain ⟨rfl, rfl⟩ : headers = latestHeaders s.samples ∧ next = log.length := by
    have := h.guard
    rwa [hguard] at this
  have hfree := h.setGuard (g := none) (by simp [hguard]) (by simp) trivial
  refine ⟨hfree.holds, hfree.headers_eq, hfree.lastWasHeader_eq, trivial, fun l hl => ?_⟩
  rcases List.mem_append.mp hl with hl | hl
  · exact h.listeners l hl
  · rw [List.mem_singleton.mp hl]
    exact Listener.sound_joined icyRequested log s.samples

/-- One listener's step leaves the others alone. -/
lemma Sound.setListener (h : s.Sound log) {i : ℕ} {l₀ l₁ : Listener}
    (hi : s.listeners[i]? = some l₀)
    (hl : l₀.Sound log s.samples → l₁.Sound log s.samples) :
    Sound { s with listeners := s.listeners.set i l₁ } log := by
  refine ⟨h.holds, h.headers_eq, h.lastWasHeader_eq, h.guard, fun l hmem => ?_⟩
  rcases List.mem_or_eq_of_mem_set hmem with hmem | rfl
  · exact h.listeners l hmem
  · exact hl (h.listeners l₀ (List.mem_of_getElem? hi))

/-- What a step does to the listeners, with the log of the channel before and after it. -/
inductive ListenerStep (s : StreamService) (log : List Bytes) :
    StreamAction → StreamService → List Bytes → Prop
  | still {a : StreamAction} {s' : StreamService} : s'.listeners = s.listeners →
      s'.samples = s.samples → s.ListenerStep log a s' log
  | broadcast {s' : StreamService} {log' : List Bytes} (x : Sample) :
      s'.listeners = s.listeners → s'.samples = s.samples ++ [x] →
      (∀ l ∈ s.listeners, log' = log ++ [x.bytes] ∨ log' = log ∧ ¬ l.connected) →
      s.ListenerStep log .muxerSends s' log'
  | join {s' : StreamService} (icyRequested : Bool) :
      s'.listeners = s.listeners ++ [.joined icyRequested log s.samples] →
      s'.samples = s.samples → s.ListenerStep log .joinUnlocks s' log
  | poll {i : ℕ} {l : Listener} : s.listeners[i]? = some l → l.connected →
      s.ListenerStep log (.poll i) { s with listeners := s.listeners.set i (l.poll s.dec s.title) }
        log
  | leave {i : ℕ} {l : Listener} : s.listeners[i]? = some l →
      s.ListenerStep log (.leave i)
        { s with listeners := s.listeners.set i { l with connected := false } } log

/-- The channel stores a sample if anybody is there to receive it. -/
lemma Sound.listenerStep_send (h : s.Sound log) {sample : Sample}
    (hguard : s.guard = some (.muxer .cached sample)) :
    ∃ log', Sound { s.broadcast sample with guard := some (.muxer .sent sample) } log' ∧
      s.ListenerStep log .muxerSends
        { s.broadcast sample with guard := some (.muxer .sent sample) } log' := by
  have hcached : s.cachedSamples = s.samples ++ [sample] := by rw [cachedSamples, hguard]
  have hheaders := h.headers_eq
  have hlast := h.lastWasHeader_eq
  rw [hcached] at hheaders hlast
  rcases hany : s.listeners.any (·.connected) with _ | _
  · have hdec : (s.broadcast sample).dec = s.dec := by
      rw [StreamService.broadcast, hany]
      rfl
    have hleft : ∀ l ∈ s.listeners, ¬ l.connected := List.any_eq_false.mp hany
    refine ⟨log, ⟨?_, hheaders, hlast, trivial, fun l hl => ?_⟩,
      .broadcast sample rfl rfl fun l hl => Or.inr ⟨rfl, hleft l hl⟩⟩
    · show (s.broadcast sample).dec.Holds log
      rw [hdec]
      exact h.holds
    · exact (h.listeners l hl).broadcast sample (Or.inr ⟨rfl, hleft l hl⟩)
  · have hdec : (s.broadcast sample).dec = s.dec.send sample.bytes := by
      rw [StreamService.broadcast, hany]
      rfl
    refine ⟨log ++ [sample.bytes], ⟨?_, hheaders, hlast, trivial, fun l hl => ?_⟩,
      .broadcast sample rfl rfl fun _ _ => Or.inl rfl⟩
    · show (s.broadcast sample).dec.Holds _
      rw [hdec]
      exact h.holds.send sample.bytes
    · exact (h.listeners l hl).broadcast sample (Or.inl rfl)

/-- **The step lemma**: one case for every action.  Each keeps the invariant, and does one of the
things listed to the listeners. -/
lemma Sound.listenerStep (h : s.Sound log) {a : StreamAction} (hs : s.step a = some s') :
    ∃ log', s'.Sound log' ∧ s.ListenerStep log a s' log' := by
  cases a with
  | callbackFails =>
    obtain rfl := Option.some.inj hs
    exact ⟨log, h, .still rfl rfl⟩
  | setTitle title =>
    obtain rfl := Option.some.inj hs
    exact ⟨log, ⟨h.holds, h.headers_eq, h.lastWasHeader_eq, h.guard, h.listeners⟩, .still rfl rfl⟩
  | muxerLocks sample =>
    obtain ⟨hguard, hs⟩ := Option.ite_none_right_eq_some.mp hs
    obtain rfl := Option.some.inj hs
    exact ⟨log, h.setGuard (by simp [hguard]) (by simp) trivial, .still rfl rfl⟩
  | muxerCaches =>
    simp only [StreamService.step] at hs
    split at hs
    · next sample hguard =>
      obtain rfl := Option.some.inj hs
      exact ⟨log, h.cacheHeader hguard, .still rfl rfl⟩
    · cases hs
  | muxerSends =>
    simp only [StreamService.step] at hs
    split at hs
    · next sample hguard =>
      obtain rfl := Option.some.inj hs
      exact h.listenerStep_send hguard
    · cases hs
  | muxerUnlocks =>
    simp only [StreamService.step] at hs
    split at hs
    · next sample hguard =>
      obtain rfl := Option.some.inj hs
      exact ⟨log, h.setGuard (by simp [hguard]) (by simp) trivial, .still rfl rfl⟩
    · cases hs
  | joinLocks icyRequested =>
    obtain ⟨hguard, hs⟩ := Option.ite_none_right_eq_some.mp hs
    obtain rfl := Option.some.inj hs
    exact ⟨log, h.setGuard (by simp [hguard]) (by simp) trivial, .still rfl rfl⟩
  | joinClones =>
    simp only [StreamService.step] at hs
    split at hs
    · next icyRequested hguard =>
      obtain rfl := Option.some.inj hs
      have hcached : s.cachedSamples = s.samples := cachedSamples_of_ne (by simp [hguard])
      exact ⟨log, h.setGuard (by simp [hguard]) (by simp) (hcached ▸ h.headers_eq),
        .still rfl rfl⟩
    · cases hs
  | joinSubscribes =>
    simp only [StreamService.step] at hs
    split at hs
    · next icyRequested headers hguard =>
      obtain rfl := Option.some.inj hs
      have hcloned : headers = latestHeaders s.samples := by
        have := h.guard
        rwa [hguard] at this
      exact ⟨log, h.setGuard (by simp [hguard]) (by simp) ⟨hcloned, h.holds.tail_eq⟩,
        .still rfl rfl⟩
    · cases hs
  | joinUnlocks =>
    simp only [StreamService.step] at hs
    split at hs
    · next icyRequested headers next hguard =>
      obtain rfl := Option.some.inj hs
      refine ⟨log, h.join hguard, .join icyRequested ?_ rfl⟩
      obtain ⟨rfl, rfl⟩ : headers = latestHeaders s.samples ∧ next = log.length := by
        have := h.guard
        rwa [hguard] at this
      rfl
    · cases hs
  | poll i =>
    simp only [StreamService.step] at hs
    split at hs
    · next l hi =>
      obtain ⟨hconnected, hs⟩ := Option.ite_none_right_eq_some.mp hs
      obtain rfl := Option.some.inj hs
      exact ⟨log, h.setListener hi fun hl => hl.poll h.holds hconnected s.title,
        .poll hi hconnected⟩
    · cases hs
  | leave i =>
    simp only [StreamService.step] at hs
    split at hs
    · next l hi =>
      obtain rfl := Option.some.inj hs
      exact ⟨log, h.setListener hi fun hl => hl.leave, .leave hi⟩
    · cases hs

lemma Sound.of_reachable {capacity : ℕ+} (h : (streamService capacity).Reachable s) :
    ∃ log, s.Sound log :=
  h.invariant (P := fun t : StreamService => ∃ log, t.Sound log) ⟨[], sound_init capacity⟩
    fun _ _ _ _ ⟨_, hsound⟩ hs =>
      have ⟨log', hsound', _⟩ := hsound.listenerStep hs
      ⟨log', hsound'⟩

end StreamService

/-- **Joining listeners get every header exactly once and never a silent gap.**  In every run,
over a channel of any capacity, what a listener's body has yielded before its first error is a
prefix of the headers current when it joined followed by all samples broadcast since; it is
all of that when the listener is connected, has not lagged and has drained.  The frames it is
sent are made from these items, and are these items when it did not ask for ICY. -/
theorem joining_listener_gets_all (capacity : ℕ+) (r : Run (streamService capacity))
    (l : Listener) (hl : l ∈ r.final.listeners) :
    okBeforeErr (l.items.map Prod.snd) <+:
      latestHeaders (r.final.samples.take l.joinedAt) ++
        (r.final.samples.drop l.joinedAt).map Sample.bytes ∧
    (l.connected → ¬ l.Lagged → l.Drained r.final.dec →
      okBeforeErr (l.items.map Prod.snd) =
        latestHeaders (r.final.samples.take l.joinedAt) ++
          (r.final.samples.drop l.joinedAt).map Sample.bytes) ∧
    l.body = (frames l.icyRequested handlerEncoder l.items).1 ∧
    (l.icyRequested = false → l.body = l.items.map Prod.snd) := by
  obtain ⟨log, hs⟩ := StreamService.Sound.of_reachable r.visits_final.reachable
  have hsound := hs.listeners l hl
  have hbody : l.body = (frames l.icyRequested handlerEncoder l.items).1 :=
    congrArg Prod.fst hsound.body_eq
  refine ⟨hsound.received_prefix, ?_, hbody, ?_⟩
  · intro hconnected hlagged hdrained
    exact hsound.eq_of_drained hs.holds hconnected hlagged hdrained
  · intro hplain
    rw [hbody, hplain, frames_false]

/-- A listener joins between the two headers of a stream, over a ring of one slot. -/
def joinBetweenHeaders : Run (streamService ⟨1, Nat.one_pos⟩) :=
  .ofActions
    [.muxerLocks ⟨true, [1]⟩, .muxerCaches, .muxerSends, .muxerUnlocks,
      .joinLocks false, .joinClones, .joinSubscribes, .joinUnlocks,
      .muxerLocks ⟨true, [2]⟩, .muxerCaches, .poll 0, .muxerSends, .muxerUnlocks, .poll 0,
      .callbackFails, .muxerLocks ⟨false, [3]⟩, .muxerCaches, .muxerSends, .poll 0, .poll 0]
    (by decide +kernel)

lemma joinBetweenHeaders_listeners : joinBetweenHeaders.final.listeners ≠ [] := by
  decide +kernel

theorem joining_listener_gets_all_between_headers :
    ∃ l ∈ joinBetweenHeaders.final.listeners, l.joinedAt = 1 ∧
      l.body = [.ok [1], .ok [2], .ok [3]] ∧
      okBeforeErr (l.items.map Prod.snd) =
        latestHeaders (joinBetweenHeaders.final.samples.take l.joinedAt) ++
          (joinBetweenHeaders.final.samples.drop l.joinedAt).map Sample.bytes := by
  have hmem := List.head_mem joinBetweenHeaders_listeners
  obtain ⟨-, hall, -, -⟩ := joining_listener_gets_all _ joinBetweenHeaders _ hmem
  exact ⟨_, hmem, by decide +kernel, by decide +kernel,
    hall (by decide +kernel) (by decide +kernel) (by decide +kernel)⟩

end P2PRadio
