import P2PRadio.Rpc.JoiningListeners

/-!
# What a step does to the listeners

`StreamService.Sound.listenerStep` says what each step does to the listeners.  `forall_listeners`
is the induction rule that follows: what holds of a listener that has just joined, and is kept by
a broadcast and by the listener's own steps, holds of every listener.
-/

namespace P2PRadio

open Broadcast Transition

/-- The bridge's action; the others are those of the muxer and the clients. -/
def StreamAction.isBridge : StreamAction → Bool
  | .setTitle _ => true
  | _ => false

namespace StreamService

variable {s s' : StreamService} {log : List Bytes}

/-! ## What a step leaves alone -/

/-- The ring keeps its size, and only the bridge writes the title. -/
lemma frame_of_step {a : StreamAction} (hs : s.step a = some s') :
    s'.dec.capacity = s.dec.capacity ∧ (a.isBridge = false → s'.title = s.title) := by
  cases a with
  | callbackFails =>
    obtain rfl := Option.some.inj hs
    exact ⟨rfl, fun _ => rfl⟩
  | setTitle =>
    obtain rfl := Option.some.inj hs
    exact ⟨rfl, nofun⟩
  | muxerLocks | joinLocks =>
    obtain ⟨-, hs⟩ := Option.ite_none_right_eq_some.mp hs
    obtain rfl := Option.some.inj hs
    exact ⟨rfl, fun _ => rfl⟩
  | muxerSends =>
    simp only [StreamService.step] at hs
    split at hs
    · next sample _ =>
      obtain rfl := Option.some.inj hs
      refine ⟨?_, fun _ => rfl⟩
      show (s.broadcast sample).dec.capacity = s.dec.capacity
      rw [StreamService.broadcast]
      split
      · rfl
      · rfl
    · cases hs
  | muxerCaches | muxerUnlocks | joinClones | joinSubscribes | joinUnlocks =>
    simp only [StreamService.step] at hs
    split at hs
    · obtain rfl := Option.some.inj hs
      exact ⟨rfl, fun _ => rfl⟩
    · cases hs
  | poll i =>
    simp only [StreamService.step] at hs
    split at hs
    · obtain ⟨-, hs⟩ := Option.ite_none_right_eq_some.mp hs
      obtain rfl := Option.some.inj hs
      exact ⟨rfl, fun _ => rfl⟩
    · cases hs
  | leave i =>
    simp only [StreamService.step] at hs
    split at hs
    · obtain rfl := Option.some.inj hs
      exact ⟨rfl, fun _ => rfl⟩
    · cases hs

/-! ## The induction rule -/

section
variable {Q : Listener → List Bytes → List Sample → Prop}

/-- One step of the rule. -/
lemma ListenerStep.forall_listeners {a : StreamAction} {log' : List Bytes}
    (hs : s.ListenerStep log a s' log') (h : s.Sound log)
    (hjoin : ∀ icyRequested, Q (.joined icyRequested log s.samples) log s.samples)
    (hbroadcast : ∀ l x, l.Sound log s.samples → Q l log s.samples →
      (log' = log ++ [x.bytes] ∨ log' = log ∧ ¬ l.connected) → Q l log' (s.samples ++ [x]))
    (hpoll : ∀ l, l.Sound log s.samples → l.connected → Q l log s.samples →
      Q (l.poll s.dec s.title) log s.samples)
    (hleave : ∀ l, Q l log s.samples → Q { l with connected := false } log s.samples)
    (hall : ∀ l ∈ s.listeners, Q l log s.samples) : ∀ l ∈ s'.listeners, Q l log' s'.samples := by
  cases hs with
  | still hlisteners hsamples =>
    rw [hlisteners, hsamples]
    exact hall
  | broadcast x hlisteners hsamples hlog =>
    rw [hlisteners, hsamples]
    intro l hl
    exact hbroadcast l x (h.listeners l hl) (hall l hl) (hlog l hl)
  | join icyRequested hlisteners hsamples =>
    rw [hlisteners, hsamples]
    intro l hl
    rcases List.mem_append.mp hl with hl | hl
    · exact hall l hl
    · rw [List.mem_singleton.mp hl]
      exact hjoin icyRequested
  | poll hi hconnected =>
    intro l hl
    rcases List.mem_or_eq_of_mem_set hl with hl | rfl
    · exact hall l hl
    · have hmem := List.mem_of_getElem? hi
      exact hpoll _ (h.listeners _ hmem) hconnected (hall _ hmem)
  | leave hi =>
    intro l hl
    rcases List.mem_or_eq_of_mem_set hl with hl | rfl
    · exact hall l hl
    · exact hleave _ (hall _ (List.mem_of_getElem? hi))

end

end StreamService

end P2PRadio
