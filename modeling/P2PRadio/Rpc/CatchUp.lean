import P2PRadio.Rpc.Lag
import P2PRadio.Support.Progress

/-!
# Clients that catch up

What a listener has received is what it is owed once it has drained.  That it drains is shown
here: a poll needs no lock, so a client polls whatever the muxer and the other clients do, and
each poll takes one thing off what is still before it, until a sample is broadcast.

`clients_catch_up` bounds the polls by the headers left and the backlog, and says what has come
out of the body by then.
-/

namespace P2PRadio

open Broadcast Transition

/-- How much is still before the listener: headers of its copy of the cache, and samples. -/
def Listener.remaining (l : Listener) (dec : Channel Bytes) : ℕ :=
  l.initial.length + l.backlog dec

namespace Listener

variable {l : Listener} {dec : Channel Bytes} {log : List Bytes}

/-- A poll takes one thing off, or all of those that are gone. -/
lemma remaining_poll_le (hdec : dec.Holds log) (hnext : l.next ≤ log.length) (title : String) :
    (l.poll dec title).remaining dec ≤ l.remaining dec - 1 := by
  simp only [remaining, backlog, hdec.tail_eq]
  rcases poll_cases hdec hnext title with ⟨header, rest, hinitial, hpoll⟩ |
    ⟨hinitial, -, bytes, hdrop, hpoll⟩ | ⟨hinitial, missed, hpos, hmissed, hpoll⟩ |
    ⟨hinitial, hend, hpoll⟩
  · rw [hpoll, hinitial, List.length_cons]
    show rest.length + (log.length - l.next) ≤ _
    omega
  · rw [hpoll, hinitial]
    show 0 + (log.length - (l.next + 1)) ≤ 0 + (log.length - l.next) - 1
    omega
  · rw [hpoll, hinitial]
    show 0 + (log.length - (l.next + missed)) ≤ 0 + (log.length - l.next) - 1
    omega
  · rw [hpoll, hinitial, hend, Nat.sub_self]
    exact Nat.zero_le _

/-- A poll keeps who the listener is. -/
lemma poll_keeps (l : Listener) (dec : Channel Bytes) (title : String) :
    (l.poll dec title).connected = l.connected ∧ (l.poll dec title).joinedAt = l.joinedAt := by
  unfold poll
  split
  · exact ⟨rfl, rfl⟩
  · next item l' hitem =>
    unfold nextItem at hitem
    split at hitem
    · obtain ⟨-, rfl⟩ := Prod.mk.inj (Option.some.inj hitem)
      exact ⟨rfl, rfl⟩
    · split at hitem
      · obtain ⟨-, rfl⟩ := Prod.mk.inj (Option.some.inj hitem)
        exact ⟨rfl, rfl⟩
      · obtain ⟨-, rfl⟩ := Prod.mk.inj (Option.some.inj hitem)
        exact ⟨rfl, rfl⟩
      · cases hitem

lemma drained_of_remaining_eq_zero (hdec : dec.Holds log) (hnext : l.next ≤ log.length)
    (hnone : l.remaining dec = 0) : l.Drained dec := by
  rw [remaining, backlog, hdec.tail_eq, Nat.add_eq_zero_iff] at hnone
  obtain ⟨hinitial, hbacklog⟩ := hnone
  rw [List.length_eq_zero_iff] at hinitial
  have hend : l.next = log.length := Nat.le_antisymm hnext (Nat.le_of_sub_eq_zero hbacklog)
  rcases hdec.recv_cases hnext with ⟨v, -, hdrop⟩ | ⟨missed, hpos, hmissed, -⟩ | ⟨-, hrecv⟩
  · rw [hend, List.drop_length] at hdrop
    cases hdrop
  · omega
  · simp only [Drained, nextItem, hinitial, hrecv]

end Listener

namespace StreamService

variable {capacity : ℕ+} {s s' : StreamService} {log : List Bytes} {i joinedAt n : ℕ}
  {samples : List Sample}

/-- The client at `i`, which joined at `joinedAt`, is connected and has at most `n` things still
before it, with these samples broadcast. -/
def Behind (i joinedAt : ℕ) (samples : List Sample) (s : StreamService) (n : ℕ) : Prop :=
  ∃ l, s.listeners[i]? = some l ∧ l.connected ∧ l.joinedAt = joinedAt ∧ s.samples = samples ∧
    l.remaining s.dec ≤ n

/-- While nothing is broadcast and the client stays, its polls bring it forward and nothing sets
it back. -/
lemma Behind.step (h : Behind i joinedAt samples s n) (hsound : s.Sound log) {a : StreamAction}
    (hs : s.step a = some s') (hsends : a ≠ .muxerSends) (hstays : a ≠ .leave i) :
    Behind i joinedAt samples s' (if a = .poll i then n - 1 else n) := by
  obtain ⟨l, hi, hconnected, hjoinedAt, hsamples, hle⟩ := h
  by_cases ha : a = .poll i
  · subst ha
    simp only [StreamService.step, hi, if_pos hconnected] at hs
    obtain rfl := Option.some.inj hs
    have hkeeps := l.poll_keeps s.dec s.title
    have hlt : i < s.listeners.length := (List.getElem?_eq_some_iff.mp hi).1
    have hpolled := Listener.remaining_poll_le hsound.holds
      (hsound.listeners l (List.mem_of_getElem? hi)).next_le s.title
    rw [if_pos rfl]
    refine ⟨l.poll s.dec s.title, List.getElem?_set_self hlt, ?_, ?_, hsamples,
      hpolled.trans (Nat.sub_le_sub_right hle 1)⟩
    · rw [hkeeps.1]
      exact hconnected
    · exact hkeeps.2.trans hjoinedAt
  · obtain ⟨log', hsound', hstep⟩ := hsound.listenerStep hs
    rw [if_neg ha]
    cases hstep with
    | still hlisteners hsamples' =>
      refine ⟨l, hlisteners ▸ hi, hconnected, hjoinedAt, hsamples'.trans hsamples, ?_⟩
      rw [Listener.remaining, Listener.backlog, hsound'.holds.tail_eq, ← hsound.holds.tail_eq]
      exact hle
    | broadcast => exact absurd rfl hsends
    | join icyRequested hlisteners hsamples' =>
      refine ⟨l, ?_, hconnected, hjoinedAt, hsamples'.trans hsamples, ?_⟩
      · rw [hlisteners, List.getElem?_append_left (List.getElem?_eq_some_iff.mp hi).1]
        exact hi
      · rw [Listener.remaining, Listener.backlog, hsound'.holds.tail_eq, ← hsound.holds.tail_eq]
        exact hle
    | @poll j =>
      have hij : j ≠ i := fun heq => ha (heq ▸ rfl)
      refine ⟨l, ?_, hconnected, hjoinedAt, hsamples, hle⟩
      rw [List.getElem?_set_ne hij]
      exact hi
    | @leave j =>
      have hij : j ≠ i := fun heq => hstays (heq ▸ rfl)
      refine ⟨l, ?_, hconnected, hjoinedAt, hsamples, hle⟩
      rw [List.getElem?_set_ne hij]
      exact hi

/-- A connected client polls at any time, and stays connected. -/
lemma exists_step_poll {l : Listener} (hi : s.listeners[i]? = some l) (hconnected : l.connected) :
    ∃ s', s.step (.poll i) = some s' ∧
      ∃ l', s'.listeners[i]? = some l' ∧ l'.connected := by
  have hlt : i < s.listeners.length := (List.getElem?_eq_some_iff.mp hi).1
  refine ⟨{ s with listeners := s.listeners.set i (l.poll s.dec s.title) }, ?_,
    l.poll s.dec s.title, List.getElem?_set_self hlt, ?_⟩
  · simp only [step, hi, if_pos hconnected]
  · rw [(l.poll_keeps s.dec s.title).1]
    exact hconnected

end StreamService

/-- **A client that polls catches up.**  In a state of any run, over a channel of any capacity,
take a connected client.  It can be polled any number of times, whoever holds the lock.  Once it
has been polled as often as it has headers and samples before it, whatever else has happened
meanwhile but a broadcast, it has drained: the items of its body account for everything it is
owed, and are exactly that if it has not lagged. -/
theorem clients_catch_up (capacity : ℕ+) (r : Run (streamService capacity)) (i : ℕ) (l : Listener)
    (hi : r.final.listeners[i]? = some l) (hconnected : l.connected) :
    (∀ n, ∃ s', (streamService capacity).exec r.final (List.replicate n (.poll i)) = some s') ∧
    ∀ as s', (streamService capacity).exec r.final as = some s' →
      (∀ a ∈ as, a ≠ .muxerSends ∧ a ≠ .leave i) →
      l.remaining r.final.dec ≤ as.count (.poll i) →
      ∃ l', s'.listeners[i]? = some l' ∧ l'.connected ∧ l'.joinedAt = l.joinedAt ∧
        s'.samples = r.final.samples ∧ l'.Drained s'.dec ∧
        unread StreamError.missed (l'.owed s'.samples) (l'.items.map Prod.snd) = some [] ∧
        (¬ l'.Lagged → okBeforeErr (l'.items.map Prod.snd) = l'.owed s'.samples) := by
  have hreach := r.visits_final.reachable
  constructor
  · intro n
    refine System.exists_exec_replicate
      (P := fun t : StreamService => ∃ l, t.listeners[i]? = some l ∧ l.connected)
      ⟨l, hi, hconnected⟩ ?_ n
    rintro t ⟨l, hi, hconnected⟩
    exact StreamService.exists_step_poll hi hconnected
  · intro as s' hexec hquiet hcount
    -- every state on the way is reachable, and so it is sound
    have hbehind : (streamService capacity).Reachable s' ∧
        StreamService.Behind i l.joinedAt r.final.samples s'
          (l.remaining r.final.dec - as.count (.poll i)) := by
      refine System.exec_countdown (P := fun t n => (streamService capacity).Reachable t ∧
        StreamService.Behind i l.joinedAt r.final.samples t n) (p := (· == .poll i))
        ⟨hreach, l, hi, hconnected, rfl, rfl, le_rfl⟩ ?_ hexec
      rintro t a t' m ha ⟨hr, hbehind⟩ hs
      obtain ⟨log, hsound⟩ := StreamService.Sound.of_reachable hr
      simp only [beq_iff_eq]
      exact ⟨hr.step hs, hbehind.step hsound hs (hquiet a ha).1 (hquiet a ha).2⟩
    rw [Nat.sub_eq_zero_of_le hcount] at hbehind
    obtain ⟨hr, l', hi', hconnected', hjoinedAt, hsamples, hnone⟩ := hbehind
    obtain ⟨log, hsound, haccounted⟩ := StreamService.accounted_of_reachable hr
    have hmem := List.mem_of_getElem? hi'
    have hdrained : l'.Drained s'.dec := Listener.drained_of_remaining_eq_zero hsound.holds
      (hsound.listeners l' hmem).next_le (Nat.le_zero.mp hnone)
    refine ⟨l', hi', hconnected', hjoinedAt, hsamples, hdrained, ?_, fun hlagged =>
      (hsound.listeners l' hmem).eq_of_drained hsound.holds hconnected' hlagged hdrained⟩
    obtain ⟨rest, hunread, hrest⟩ := haccounted l' hmem
    have hempty : rest = [] := by
      have hlength := congrArg List.length (hrest hconnected')
      rw [List.length_append, List.length_drop, ← hsound.holds.tail_eq] at hlength
      exact List.eq_nil_of_length_eq_zero (hlength.trans (Nat.le_zero.mp hnone))
    rw [hunread, hempty]

/-- A client joins a ring of one slot and sleeps through three samples. -/
def asleep : Run (streamService ⟨1, Nat.one_pos⟩) :=
  .ofActions
    ([.joinLocks false, .joinClones, .joinSubscribes, .joinUnlocks] ++
      [1, 2, 3].flatMap fun n =>
        [.muxerLocks ⟨false, [n]⟩, .muxerCaches, .muxerSends, .muxerUnlocks])
    (by decide +kernel)

lemma asleep_listeners : (asleep.final.listeners[0]?).isSome := by
  decide +kernel

/-- Three polls are enough, though another client holds the lock. -/
theorem clients_catch_up_asleep :
    ∃ s' l', (streamService ⟨1, Nat.one_pos⟩).exec asleep.final
        [.joinLocks true, .poll 0, .joinClones, .poll 0, .poll 0] = some s' ∧
      s'.listeners[0]? = some l' ∧ l'.Drained s'.dec ∧
      unread StreamError.missed (l'.owed s'.samples) (l'.items.map Prod.snd) = some [] := by
  obtain ⟨s', hexec⟩ := Option.isSome_iff_exists.mp
    (show ((streamService ⟨1, Nat.one_pos⟩).exec asleep.final
      [.joinLocks true, .poll 0, .joinClones, .poll 0, .poll 0]).isSome by decide +kernel)
  obtain ⟨l', hi', -, -, -, hdrained, hunread, -⟩ :=
    (clients_catch_up ⟨1, Nat.one_pos⟩ asleep 0 _ (Option.some_get asleep_listeners).symm
      (by decide +kernel)).2 _ s' hexec (by decide +kernel) (by decide +kernel)
  exact ⟨s', l', hexec, hi', hdrained, hunread⟩

end P2PRadio
