import P2PRadio.Rpc.ListenerSteps

/-!
# Listeners that fall behind

The channel to the listeners holds a bounded number of samples, so a listener that is polled too
rarely finds the oldest ones gone.  Its body says so and goes on with what is left.

* `lags_accounted_for`: nothing else is ever missing.  Against what the listener is owed, every
  item of its body is either the next sample or an error that counts the samples lost before the
  next one, through any number of lags.
* `never_lags_iff`: a listener lags exactly when it is polled with more samples waiting than the
  ring has slots.
-/

namespace P2PRadio

open Broadcast Transition

/-- How many samples are gone, as the error has it. -/
def StreamError.missed (err : StreamError) : ℕ :=
  match err.source with
  | .lagged missed => missed

/-- How many samples wait in the channel for the listener, those that are gone included. -/
def Listener.backlog (l : Listener) (dec : Channel Bytes) : ℕ := dec.tail - l.next

/-! ## Accounting -/

namespace Listener

variable {l : Listener} {log : List Bytes} {samples : List Sample}

/-- The items of the body account for what the listener is owed, up to what is still before
it. -/
def Accounted (l : Listener) (log : List Bytes) (samples : List Sample) : Prop :=
  ∃ rest, unread StreamError.missed (l.owed samples) (l.items.map Prod.snd) = some rest ∧
    (l.connected → rest = l.initial ++ log.drop l.next)

lemma accounted_joined (icyRequested : Bool) (log : List Bytes) (samples : List Sample) :
    (joined icyRequested log samples).Accounted log samples := by
  refine ⟨_, unread_nil _, fun _ => ?_⟩
  show owed _ samples = latestHeaders samples ++ log.drop log.length
  rw [owed, List.drop_length]
  show latestHeaders (samples.take samples.length) ++
    (samples.drop samples.length).map Sample.bytes = _
  rw [List.take_length, List.drop_length, List.map_nil]

lemma Accounted.broadcast (h : l.Accounted log samples) (hsound : l.Sound log samples) (x : Sample)
    {log' : List Bytes} (hlog : log' = log ++ [x.bytes] ∨ log' = log ∧ ¬ l.connected) :
    l.Accounted log' (samples ++ [x]) := by
  obtain ⟨rest, hunread, hrest⟩ := h
  refine ⟨rest ++ [x.bytes], ?_, fun hconnected => ?_⟩
  · rw [owed_concat hsound.joinedAt_le]
    exact unread_append_values hunread _
  · rcases hlog with rfl | ⟨-, hleft⟩
    · rw [hrest hconnected, List.drop_append_of_le_length hsound.next_le, List.append_assoc]
    · exact absurd hconnected hleft

/-- One more item accounts for the part of the rest it takes away. -/
lemma Accounted.yield (h : l.Accounted log samples) (hconnected : l.connected) (title : String)
    {item : Except StreamError Bytes} {initial : List Bytes} {next : ℕ}
    (hitem : unread StreamError.missed (l.initial ++ log.drop l.next) [item] =
      some (initial ++ log.drop next)) :
    (l.yield title item initial next).Accounted log samples := by
  obtain ⟨rest, hunread, hrest⟩ := h
  rw [hrest hconnected] at hunread
  refine ⟨initial ++ log.drop next, ?_, fun _ => rfl⟩
  show unread _ (l.owed samples) ((l.items ++ [(title, item)]).map Prod.snd) = _
  rw [List.map_append, List.map_singleton, unread_append hunread]
  exact hitem

lemma Accounted.poll {dec : Channel Bytes} (hdec : dec.Holds log) (h : l.Accounted log samples)
    (hsound : l.Sound log samples) (hconnected : l.connected) (title : String) :
    (l.poll dec title).Accounted log samples := by
  rcases poll_cases hdec hsound.next_le title with ⟨header, rest, hinitial, hpoll⟩ |
    ⟨hinitial, -, bytes, hdrop, hpoll⟩ | ⟨hinitial, missed, hpos, hmissed, hpoll⟩ | ⟨-, -, hpoll⟩
  · rw [hpoll]
    apply h.yield hconnected
    rw [hinitial, List.cons_append, unread_ok, unread_nil]
  · rw [hpoll]
    apply h.yield hconnected
    rw [hinitial, List.nil_append, hdrop, unread_ok, unread_nil, List.nil_append]
  · rw [hpoll]
    apply h.yield hconnected
    have hle : missed ≤ (log.drop l.next).length := by
      rw [List.length_drop]
      omega
    rw [hinitial, List.nil_append, List.nil_append, unread_error hpos hle, unread_nil]
    show some ((log.drop l.next).drop missed) = _
    rw [List.drop_drop]
  · rw [hpoll]
    exact h

end Listener

namespace StreamService

variable {s s' : StreamService} {log : List Bytes}

lemma accounted_of_reachable {capacity : ℕ+} (h : (streamService capacity).Reachable s) :
    ∃ log, s.Sound log ∧ ∀ l ∈ s.listeners, l.Accounted log s.samples := by
  refine h.invariant (P := fun t : StreamService => ∃ log, t.Sound log ∧
    ∀ l ∈ t.listeners, l.Accounted log t.samples)
    ⟨[], sound_init capacity, fun l hl => absurd hl List.not_mem_nil⟩ ?_
  rintro s a s' - ⟨log, hsound, hall⟩ hs
  obtain ⟨log', hsound', hstep⟩ := hsound.listenerStep hs
  refine ⟨log', hsound', hstep.forall_listeners hsound ?_ ?_ ?_ ?_ hall⟩
  · intro icyRequested
    exact Listener.accounted_joined icyRequested log s.samples
  · intro l x hl haccounted hlog
    exact haccounted.broadcast hl x hlog
  · intro l hl hconnected haccounted
    exact haccounted.poll hsound.holds hl hconnected s.title
  · rintro l ⟨rest, hunread, -⟩
    exact ⟨rest, hunread, nofun⟩

end StreamService

/-- **Every lag is accounted for.**  In every run, over a channel of any capacity, the items of a
listener's body account for everything it is owed, the headers current when it joined and every
sample since, up to a rest it has not received yet: each value is the next one owed, and each
error counts the samples lost before the next.  The rest of a connected listener is its headers
still to be sent and its backlog, and it is empty once the listener has drained. -/
theorem lags_accounted_for (capacity : ℕ+) (r : Run (streamService capacity)) (l : Listener)
    (hl : l ∈ r.final.listeners) :
    ∃ rest, unread StreamError.missed
        (latestHeaders (r.final.samples.take l.joinedAt) ++
          (r.final.samples.drop l.joinedAt).map Sample.bytes) (l.items.map Prod.snd) = some rest ∧
      (l.connected → rest.length = l.initial.length + l.backlog r.final.dec) ∧
      (l.connected → l.Drained r.final.dec → rest = []) := by
  obtain ⟨log, hs, hall⟩ := StreamService.accounted_of_reachable r.visits_final.reachable
  obtain ⟨rest, hunread, hrest⟩ := hall l hl
  refine ⟨rest, hunread, fun hconnected => ?_, fun hconnected hdrained => ?_⟩
  · rw [hrest hconnected, List.length_append, List.length_drop, Listener.backlog,
      hs.holds.tail_eq]
  · rw [hrest hconnected]
    unfold Listener.Drained Listener.nextItem at hdrained
    split at hdrained
    · cases hdrained
    · next hinitial =>
      rcases hs.holds.recv_cases (hs.listeners l hl).next_le with ⟨v, hrecv, -⟩ |
        ⟨missed, -, -, hrecv⟩ | ⟨hend, -⟩
      · rw [hrecv] at hdrained
        cases hdrained
      · rw [hrecv] at hdrained
        cases hdrained
      · rw [hinitial, hend, List.drop_length, List.append_nil]

/-- Over a ring of one slot a listener misses one sample, receives the next, and then misses
two. -/
def twoLags : Run (streamService ⟨1, Nat.one_pos⟩) :=
  .ofActions
    ([.joinLocks false, .joinClones, .joinSubscribes, .joinUnlocks] ++
      [1, 2, 3, 4, 5].flatMap (fun n => [.muxerLocks ⟨false, [n]⟩, .muxerCaches, .muxerSends,
        .muxerUnlocks] ++ if n = 2 ∨ n = 5 then [.poll 0, .poll 0] else []))
    (by decide +kernel)

lemma twoLags_listeners : twoLags.final.listeners ≠ [] := by
  decide +kernel

theorem lags_accounted_for_two_lags :
    ∃ l ∈ twoLags.final.listeners, l.body =
        [.error (lagError 1), .ok [2], .error (lagError 2), .ok [5]] ∧
      unread StreamError.missed (latestHeaders (twoLags.final.samples.take l.joinedAt) ++
        (twoLags.final.samples.drop l.joinedAt).map Sample.bytes) (l.items.map Prod.snd) =
          some [] := by
  have hmem := List.head_mem twoLags_listeners
  obtain ⟨rest, hunread, -, hdrained⟩ := lags_accounted_for _ twoLags _ hmem
  obtain rfl : rest = [] := hdrained (by decide +kernel) (by decide +kernel)
  exact ⟨_, hmem, by decide +kernel, hunread⟩

/-! ## When a listener lags -/

/-- A listener that waits for the channel is polled with at most `slots` samples before it. -/
def StreamService.KeepsUp (slots : ℕ) (s : StreamService) (a : StreamAction) : Prop :=
  ∀ i l, a = .poll i → s.listeners[i]? = some l → l.initial = [] → l.backlog s.dec ≤ slots

namespace StreamService

variable {s s' : StreamService} {log : List Bytes}

/-- The ring never changes its size. -/
lemma capacity_of_reachable {capacity : ℕ+} (h : (streamService capacity).Reachable s) :
    s.dec.capacity = (capacity : ℕ).nextPowerOfTwo := by
  refine h.invariant
    (P := fun t : StreamService => t.dec.capacity = (capacity : ℕ).nextPowerOfTwo) rfl ?_
  intro s a s' _ ih hs
  exact (frame_of_step hs).1.trans ih

end StreamService

namespace Listener

variable {l : Listener} {log : List Bytes} {samples : List Sample}

lemma lagged_yield {title : String} {item : Except StreamError Bytes} {initial : List Bytes}
    {next : ℕ} :
    (l.yield title item initial next).Lagged ↔ l.Lagged ∨ item.toOption = none := by
  show (∃ i ∈ l.items ++ [(title, item)], i.2.toOption = none) ↔ _
  constructor
  · rintro ⟨i, hi, hnone⟩
    rcases List.mem_append.mp hi with hi | hi
    · exact Or.inl ⟨i, hi, hnone⟩
    · rw [List.mem_singleton.mp hi] at hnone
      exact Or.inr hnone
  · rintro (⟨i, hi, hnone⟩ | hnone)
    · exact ⟨i, List.mem_append_left _ hi, hnone⟩
    · exact ⟨_, List.mem_append_right _ (List.mem_singleton_self _), hnone⟩

/-- A poll tells the listener that it has lagged exactly when the channel has more for it than
the ring has slots. -/
lemma lagged_poll {dec : Channel Bytes} (hdec : dec.Holds log) (hsound : l.Sound log samples)
    (title : String) :
    (l.poll dec title).Lagged ↔ l.Lagged ∨ l.initial = [] ∧ dec.capacity < l.backlog dec := by
  have hnext := hsound.next_le
  rw [backlog, hdec.tail_eq]
  rcases poll_cases hdec hnext title with ⟨header, rest, hinitial, hpoll⟩ |
    ⟨-, hstored, bytes, -, hpoll⟩ | ⟨hinitial, missed, hpos, hmissed, hpoll⟩ | ⟨-, hend, hpoll⟩
  · rw [hpoll, lagged_yield, hinitial]
    simp [Except.toOption]
  · rw [hpoll, lagged_yield]
    have hnot : ¬ dec.capacity < log.length - l.next := by omega
    simp [Except.toOption, hnot]
  · rw [hpoll, lagged_yield]
    have hlt : dec.capacity < log.length - l.next := by omega
    simp [Except.toOption, hinitial, hlt]
  · rw [hpoll]
    have hnot : ¬ dec.capacity < log.length - l.next := by omega
    simp [hnot]

end Listener

namespace StreamService

variable {s s' : StreamService} {capacity : ℕ+} {a : StreamAction}

/-- Nobody has lagged. -/
def NobodyLagged (s : StreamService) : Prop := ∀ l ∈ s.listeners, ¬ l.Lagged

lemma nobodyLagged_step (hr : (streamService capacity).Reachable s) (h : s.NobodyLagged)
    (hs : s.step a = some s') (hkeeps : s.KeepsUp (capacity : ℕ).nextPowerOfTwo a) :
    s'.NobodyLagged := by
  obtain ⟨log, hsound⟩ := Sound.of_reachable hr
  obtain ⟨log', -, hstep⟩ := hsound.listenerStep hs
  unfold NobodyLagged
  cases hstep with
  | still hlisteners =>
    rw [hlisteners]
    exact h
  | broadcast x hlisteners =>
    rw [hlisteners]
    exact h
  | join icyRequested hlisteners =>
    rw [hlisteners]
    intro l hl
    rcases List.mem_append.mp hl with hl | hl
    · exact h l hl
    · rw [List.mem_singleton.mp hl]
      rintro ⟨item, hitem, -⟩
      exact absurd hitem List.not_mem_nil
  | @poll i l hi =>
    intro l' hl'
    rcases List.mem_or_eq_of_mem_set hl' with hl' | rfl
    · exact h l' hl'
    · have hmem := List.mem_of_getElem? hi
      rw [Listener.lagged_poll hsound.holds (hsound.listeners l hmem)]
      rintro (hlagged | ⟨hinitial, hlt⟩)
      · exact h l hmem hlagged
      · have hle := hkeeps i l rfl hi hinitial
        rw [capacity_of_reachable hr] at hlt
        exact Nat.not_lt.mpr hle hlt
  | @leave i l hi =>
    intro l' hl'
    rcases List.mem_or_eq_of_mem_set hl' with hl' | rfl
    · exact h l' hl'
    · exact h l (List.mem_of_getElem? hi)

lemma not_nobodyLagged_step (hr : (streamService capacity).Reachable s)
    (hs : s.step a = some s') (hlate : ¬ s.KeepsUp (capacity : ℕ).nextPowerOfTwo a) :
    ¬ s'.NobodyLagged := by
  obtain ⟨log, hsound⟩ := Sound.of_reachable hr
  simp only [KeepsUp, not_forall, not_le] at hlate
  obtain ⟨i, l, rfl, hi, hinitial, hlt⟩ := hlate
  simp only [step, hi, Option.ite_none_right_eq_some] at hs
  obtain ⟨-, hs⟩ := hs
  obtain rfl := Option.some.inj hs
  intro h
  have hmem : l.poll s.dec s.title ∈ s.listeners.set i (l.poll s.dec s.title) := by
    apply List.mem_of_getElem? (i := i)
    rw [List.getElem?_set_self (List.getElem?_eq_some_iff.mp hi).1]
  refine h _ hmem ?_
  rw [Listener.lagged_poll hsound.holds (hsound.listeners l (List.mem_of_getElem? hi)),
    capacity_of_reachable hr]
  exact Or.inr ⟨hinitial, hlt⟩

end StreamService

/-- **A listener lags exactly when it is polled too late.**  In a run over a channel asked for
any capacity no listener is ever told that it has lagged, if and only if no listener that waits
for the channel is polled with more samples before it than the ring has slots, which is the next
power of two.  A connected listener of such a run that has drained has received everything it is
owed. -/
theorem never_lags_iff (capacity : ℕ+) (r : Run (streamService capacity)) :
    ((∀ s, r.Visits s → ∀ l ∈ s.listeners, ¬ l.Lagged) ↔
      ∀ s a, r.Takes s a → s.KeepsUp (capacity : ℕ).nextPowerOfTwo a) ∧
    ((∀ s a, r.Takes s a → s.KeepsUp (capacity : ℕ).nextPowerOfTwo a) →
      ∀ s, r.Visits s → ∀ l ∈ s.listeners, l.connected → l.Drained s.dec →
        okBeforeErr (l.items.map Prod.snd) =
          latestHeaders (s.samples.take l.joinedAt) ++
            (s.samples.drop l.joinedAt).map Sample.bytes) := by
  have hiff : (∀ s, r.Visits s → ∀ l ∈ s.listeners, ¬ l.Lagged) ↔
      ∀ s a, r.Takes s a → s.KeepsUp (capacity : ℕ).nextPowerOfTwo a := by
    apply r.forall_visits_iff (P := StreamService.NobodyLagged) (J := StreamService.NobodyLagged)
    · intro l hl
      exact absurd hl List.not_mem_nil
    · intro s _ hs
      exact hs
    · intro s a s' hr hs hstep hkeeps
      exact StreamService.nobodyLagged_step hr hs hstep hkeeps
    · intro s a s' hr hstep hlate
      exact StreamService.not_nobodyLagged_step hr hstep hlate
  refine ⟨hiff, fun hkeeps s hv l hl hconnected hdrained => ?_⟩
  obtain ⟨log, hsound⟩ := StreamService.Sound.of_reachable hv.reachable
  exact (hsound.listeners l hl).eq_of_drained hsound.holds hconnected
    (hiff.mpr hkeeps s hv l hl) hdrained

end P2PRadio
