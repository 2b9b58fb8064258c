import P2PRadio.Backend.PipelineShutdown

/-!
# How a pipeline's service ends

A service that has returned does nothing more, and once the token has fired it returns after at
most three steps of its own: GStreamer answers, the loop observes the token, and GStreamer
answers again (`PipelineService.rank_lt_of_step`, `PipelineService.exists_step_of_cancelled`), or
the poll ends and `run_until_cancelled` observes it.

What the decoder returns says little about why it ended (`DecodingBackend.returned_cases`): it
returns an error of its own, or the refusal of a change of state, and nothing that the bus or a
packet has caused.
-/

namespace P2PRadio

open Transition

/-- How many steps of its own a service has left, at most. -/
def Phase.rank {ρ : Type} : Phase ρ → ℕ
  | .starting => 3
  | .looping => 2
  | .pending _ => 1
  | .ended => 1
  | .returned _ => 0

lemma Phase.rank_le {ρ : Type} (phase : Phase ρ) : phase.rank ≤ 3 := by
  cases phase <;> simp [rank]

/-- The service has left its loop, or never come to it. -/
def Phase.Over {ρ : Type} : Phase ρ → Prop
  | .ended => True
  | .returned _ => True
  | _ => False

namespace PipelineService

variable {β ρ : Type} {svc : PipelineService β ρ} {s s' : ServiceState ρ} {a : ServiceAction β}

lemma cancelled_of_step (hs : svc.step s a = some s') (h : s.cancelled) : s'.cancelled := by
  cases steps_of_step hs with
  | cancel => rfl
  | _ => exact h

lemma phase_of_step_of_returned (hs : svc.step s a = some s') {ret : ρ}
    (h : s.phase = .returned ret) : s'.phase = .returned ret := by
  -- Every other step starts in an earlier phase.
  have hne : ∀ {phase : Phase ρ}, s.phase = phase → phase.rank ≠ 0 → False := by
    rintro phase rfl hrank
    rw [h] at hrank
    exact hrank rfl
  cases steps_of_step hs with
  | cancel => exact h
  | playing hphase => exact (hne hphase nofun).elim
  | notPlaying hphase => exact (hne hphase nofun).elim
  | continues => exact h
  | breaks hphase => exact (hne hphase nofun).elim
  | pends _ hphase => exact (hne hphase nofun).elim
  | yields _ hphase => exact (hne hphase nofun).elim
  | suspends hphase => exact (hne hphase nofun).elim
  | null hphase => exact (hne hphase nofun).elim
  | notNull hphase => exact (hne hphase nofun).elim
  | neverPolled _ hphase => exact (hne hphase nofun).elim
  | drop hphase => exact (hne hphase nofun).elim

/-! ## Progress -/

/-- The steps that a service takes without an event from outside: GStreamer answers, the loop
observes the token, the budget makes it yield, or `run_until_cancelled` drops it. -/
def Advances (svc : PipelineService β ρ) : ServiceAction β → Prop
  | .setPlaying _ => True
  | .setNull _ => True
  | .yields => True
  | .drop => True
  | .branch b => svc.waitsForToken b ∧ svc.breaks b
  | .cancel => False
  | .pends => False
  | .suspends => False

lemma rank_lt_of_step (hs : svc.step s a = some s') (ha : svc.Advances a) :
    s'.phase.rank < s.phase.rank := by
  cases steps_of_step hs with
  | cancel => exact ha.elim
  | playing hphase =>
    rw [hphase]
    exact Nat.lt_succ_self 2
  | notPlaying hphase =>
    rw [hphase]
    exact Nat.succ_pos 2
  | continues _ hcontinues => exact absurd (ha.2.symm.trans hcontinues) (Bool.noConfusion ·)
  | breaks hphase =>
    rw [hphase]
    exact Nat.lt_succ_self 1
  | pends => exact ha.elim
  | yields _ hphase =>
    rw [hphase]
    exact Nat.lt_succ_self 1
  | suspends => exact ha.elim
  | null hphase =>
    rw [hphase]
    exact Nat.one_pos
  | notNull hphase =>
    rw [hphase]
    exact Nat.one_pos
  | neverPolled _ hphase =>
    rw [hphase]
    exact Nat.succ_pos 2
  | drop hphase =>
    rw [hphase]
    exact Nat.one_pos

variable (svc) in
/-- Once the token has fired, a service that has not returned has a step of its own. -/
lemma exists_step_of_cancelled (hc : s.cancelled)
    {b : β} (hb : svc.waitsForToken b ∧ svc.breaks b) (hne : ∀ ret, s.phase ≠ .returned ret) :
    ∃ a s', svc.Advances a ∧ svc.step s a = some s' := by
  rcases hphase : s.phase with _ | _ | ret | _ | ret
  · refine ⟨.setPlaying false,
      { s with phase := .returned (svc.result (.error .stateChange)) }, trivial, ?_⟩
    simp [step, hphase]
  · by_cases hspent : svc.dropped.isSome ∧ s.budget = 0
    · obtain ⟨ret, hdropped⟩ := Option.isSome_iff_exists.mp hspent.1
      refine ⟨.yields, { s with phase := .pending ret }, trivial, ?_⟩
      simp [step, hphase, hdropped, hspent.2]
    · refine ⟨.branch b, { s with phase := .ended, budget := s.budget - svc.cost b }, hb, ?_⟩
      simp [step, hphase, hc, hb.2, hspent]
  · refine ⟨.drop, { s with phase := .returned ret }, trivial, ?_⟩
    simp [step, hphase, hc]
  · refine ⟨.setNull false,
      { s with phase := .returned (svc.result (.error .stateChange)) }, trivial, ?_⟩
    simp [step, hphase]
  · exact absurd hphase (hne ret)

end PipelineService

/-! ## The decoder -/

/-- A decoder that has returned was dropped after the token had fired, or reports a change of
state that GStreamer refused, or that its loop has ended. -/
lemma DecodingBackend.returned_cases {s : ServiceState (TaskRet AnyhowError)}
    (h : DecodingBackend.run.system.Reachable s) {ret : TaskRet AnyhowError}
    (hret : s.phase = .returned ret) :
    (ret = none ∧ s.cancelled) ∨ ret = some (.error .stateChange) ∨
      ret = some (.error (.msg "Pipeline finished unexpectedly")) := by
  refine h.invariant (P := fun s : ServiceState (TaskRet AnyhowError) =>
    ∀ ret, s.phase = .returned ret → (ret = none ∧ s.cancelled) ∨
      ret = some (.error .stateChange) ∨
      ret = some (.error (.msg "Pipeline finished unexpectedly"))) ?_ ?_ ret hret
  · intro ret hret
    cases hret
  intro s a s' hr ih hs ret hret
  cases PipelineService.steps_of_step hs with
  | cancel =>
    rcases ih ret hret with ⟨hnone, -⟩ | herr
    · exact Or.inl ⟨hnone, rfl⟩
    · exact Or.inr herr
  | continues => exact ih ret hret
  | notPlaying =>
    obtain rfl := Phase.returned.inj hret
    exact Or.inr (Or.inl rfl)
  | null =>
    obtain rfl := Phase.returned.inj hret
    exact Or.inr (Or.inr rfl)
  | notNull =>
    obtain rfl := Phase.returned.inj hret
    exact Or.inr (Or.inl rfl)
  | neverPolled hdropped _ hc =>
    obtain rfl := Phase.returned.inj hret
    exact Or.inl ⟨(Option.some.inj hdropped).symm, hc⟩
  | drop hphase hc =>
    obtain rfl := Phase.returned.inj hret
    have hdropped := PipelineService.dropped_of_pending hr hphase
    exact Or.inl ⟨(Option.some.inj hdropped).symm, hc⟩
  | _ => cases hret

end P2PRadio
