import P2PRadio.Backend.Pipelines

/-!
# The pipeline after its service

A service that leaves its loop sets its pipeline to `Null`, whichever branch ended the loop.  The
decoder does not always leave its loop: when a poll of it ends without a result and the token has
fired by then, `run_until_cancelled` drops it, and the pipeline stays in `Playing`
(`not_pipeline_shut_down`).

`PipelineService.Steps` lists what a service can do, `PipelineService.Sound` what it keeps, and
`pipeline_shut_down_iff` says exactly which runs shut the pipeline down.
-/

namespace P2PRadio

open Transition

namespace PipelineService

variable {β ρ : Type} {svc : PipelineService β ρ} {s s' : ServiceState ρ} {a : ServiceAction β}

/-! ## Step inversion -/

/-- Every step a service can take, with its guards and its outcome. -/
inductive Steps (svc : PipelineService β ρ) (s : ServiceState ρ) :
    ServiceAction β → ServiceState ρ → Prop
  | cancel : svc.Steps s .cancel { s with cancelled := true }
  | playing : s.phase = .starting → svc.Steps s (.setPlaying true)
      { s with pipeline := .playing, phase := .looping, wasPlaying := true }
  | notPlaying : s.phase = .starting → svc.Steps s (.setPlaying false)
      { s with phase := .returned (svc.result (.error .stateChange)) }
  | continues {b : β} : s.phase = .looping → svc.breaks b = false →
      svc.Steps s (.branch b) { s with budget := s.budget - svc.cost b }
  | breaks {b : β} : s.phase = .looping → svc.breaks b = true →
      svc.Steps s (.branch b) { s with phase := .ended, budget := s.budget - svc.cost b }
  | pends {ret : ρ} : svc.dropped = some ret → s.phase = .looping → s.cancelled = false →
      svc.Steps s .pends { s with phase := .pending ret }
  | yields {ret : ρ} : svc.dropped = some ret → s.phase = .looping → s.budget = 0 →
      svc.Steps s .yields { s with phase := .pending ret }
  | suspends {ret : ρ} : s.phase = .pending ret → s.cancelled = false → svc.Steps s .suspends
      { s with phase := .looping, budget := coopBudget }
  | null : s.phase = .ended → svc.Steps s (.setNull true)
      { s with pipeline := .null, phase := .returned (svc.result (.ok ())) }
  | notNull : s.phase = .ended → svc.Steps s (.setNull false)
      { s with phase := .returned (svc.result (.error .stateChange)) }
  | neverPolled {ret : ρ} : svc.dropped = some ret → s.phase = .starting → s.cancelled →
      svc.Steps s .drop { s with phase := .returned ret }
  | drop {ret : ρ} : s.phase = .pending ret → s.cancelled →
      svc.Steps s .drop { s with phase := .returned ret }

/-- **Step inversion.**  An enabled action is one of the steps listed. -/
lemma steps_of_step (hs : svc.step s a = some s') : svc.Steps s a s' := by
  cases a with
  | cancel =>
    obtain rfl := Option.some.inj hs
    exact .cancel
  | setPlaying accepted =>
    simp only [step] at hs
    split at hs
    · next hphase =>
      cases accepted with
      | true =>
        obtain rfl := Option.some.inj hs
        exact .playing hphase
      | false =>
        obtain rfl := Option.some.inj hs
        exact .notPlaying hphase
    · cases hs
  | branch b =>
    simp only [step] at hs
    split at hs
    · next hphase =>
      split at hs
      · cases hs
      split at hs
      · next hbreaks =>
        obtain rfl := Option.some.inj hs
        exact .breaks hphase hbreaks
      · next hcontinues =>
        obtain rfl := Option.some.inj hs
        exact .continues hphase (Bool.eq_false_iff.mpr hcontinues)
    · cases hs
  | pends =>
    simp only [step] at hs
    split at hs
    · next ret hdropped hphase =>
      obtain ⟨hrunning, hs⟩ := Option.ite_none_left_eq_some.mp hs
      obtain rfl := Option.some.inj hs
      exact .pends hdropped hphase (Bool.eq_false_iff.mpr hrunning)
    · cases hs
  | yields =>
    simp only [step] at hs
    split at hs
    · next ret hdropped hphase =>
      obtain ⟨hbudget, hs⟩ := Option.ite_none_right_eq_some.mp hs
      obtain rfl := Option.some.inj hs
      exact .yields hdropped hphase hbudget
    · cases hs
  | suspends =>
    simp only [step] at hs
    split at hs
    · next hphase =>
      obtain ⟨hrunning, hs⟩ := Option.ite_none_left_eq_some.mp hs
      obtain rfl := Option.some.inj hs
      exact .suspends hphase (Bool.eq_false_iff.mpr hrunning)
    · cases hs
  | setNull accepted =>
    simp only [step] at hs
    split at hs
    · next hphase =>
      cases accepted with
      | true =>
        obtain rfl := Option.some.inj hs
        exact .null hphase
      | false =>
        obtain rfl := Option.some.inj hs
        exact .notNull hphase
    · cases hs
  | drop =>
    simp only [step] at hs
    split at hs
    · next ret hdropped hphase =>
      obtain ⟨hc, hs⟩ := Option.ite_none_right_eq_some.mp hs
      obtain rfl := Option.some.inj hs
      exact .neverPolled hdropped hphase hc
    · next ret hphase =>
      obtain ⟨hc, hs⟩ := Option.ite_none_right_eq_some.mp hs
      obtain rfl := Option.some.inj hs
      exact .drop hphase hc
    · cases hs

/-! ## What a service keeps -/

/-- The pipeline is in `Playing` from the start of the loop to its end, and nowhere before. -/
structure Sound (s : ServiceState ρ) : Prop where
  starting : s.phase = .starting → s.wasPlaying = false
  running : s.phase = .looping ∨ (∃ ret, s.phase = .pending ret) ∨ s.phase = .ended →
    s.wasPlaying = true ∧ s.pipeline = .playing
  wasPlaying : s.pipeline = .playing → s.wasPlaying = true

lemma sound_init : Sound svc.system.init where
  starting _ := rfl
  running h := by rcases h with h | ⟨_, h⟩ | h <;> cases h
  wasPlaying h := absurd h svc.created_ne_playing

/-- Of a service that has returned only the pipeline and its history matter. -/
lemma sound_returned (ret : ρ) {t : ServiceState ρ} (hphase : t.phase = .returned ret)
    (hwas : t.pipeline = .playing → t.wasPlaying = true) : Sound t where
  starting h := by
    rw [hphase] at h
    cases h
  running h := by
    rw [hphase] at h
    rcases h with h | ⟨_, h⟩ | h <;> cases h
  wasPlaying := hwas

lemma Sound.step (h : Sound s) (hs : svc.step s a = some s') : Sound s' := by
  cases steps_of_step hs with
  | cancel => exact ⟨h.starting, h.running, h.wasPlaying⟩
  | playing => exact ⟨nofun, fun _ => ⟨rfl, rfl⟩, fun _ => rfl⟩
  | continues hphase =>
    exact ⟨h.starting, fun _ => h.running (Or.inl hphase), h.wasPlaying⟩
  | breaks hphase => exact ⟨nofun, fun _ => h.running (Or.inl hphase), h.wasPlaying⟩
  | pends _ hphase => exact ⟨nofun, fun _ => h.running (Or.inl hphase), h.wasPlaying⟩
  | yields _ hphase => exact ⟨nofun, fun _ => h.running (Or.inl hphase), h.wasPlaying⟩
  | suspends hphase =>
    exact ⟨nofun, fun _ => h.running (Or.inr (Or.inl ⟨_, hphase⟩)), h.wasPlaying⟩
  | null => exact sound_returned _ rfl nofun
  | notPlaying => exact sound_returned _ rfl h.wasPlaying
  | notNull => exact sound_returned _ rfl h.wasPlaying
  | neverPolled => exact sound_returned _ rfl h.wasPlaying
  | drop => exact sound_returned _ rfl h.wasPlaying

lemma sound_of_reachable (h : svc.system.Reachable s) : Sound s :=
  h.invariant sound_init fun _ _ _ _ hsound hs => hsound.step hs

/-! ## The exact condition -/

/-- A service that has returned after its pipeline was in `Playing` has set it to `Null`. -/
def ShutDown (s : ServiceState ρ) : Prop :=
  ∀ ret, s.phase = .returned ret → s.wasPlaying = true → s.pipeline = .null

/-- GStreamer does not refuse the change to `Null`, and the service is not dropped while its
pipeline is in `Playing`. -/
def LeavesNothingPlaying (s : ServiceState ρ) (a : ServiceAction β) : Prop :=
  a ≠ .setNull false ∧ (a = .drop → s.pipeline ≠ .playing)

lemma shutDown_step (hsound : Sound s) (hshut : ShutDown s) (hs : svc.step s a = some s')
    (ha : LeavesNothingPlaying s a) : ShutDown s' := by
  intro ret hret hwas
  cases steps_of_step hs with
  | cancel => exact hshut ret hret hwas
  | continues => exact hshut ret hret hwas
  | playing => cases hret
  | breaks => cases hret
  | pends => cases hret
  | yields => cases hret
  | suspends => cases hret
  | null => rfl
  | notPlaying hphase =>
    have hnever := hsound.starting hphase
    exact absurd (hnever.symm.trans hwas) Bool.false_ne_true
  | notNull => exact absurd rfl ha.1
  | neverPolled _ hphase =>
    have hnever := hsound.starting hphase
    exact absurd (hnever.symm.trans hwas) Bool.false_ne_true
  | drop hphase =>
    exact absurd (hsound.running (Or.inr (Or.inl ⟨_, hphase⟩))).2 (ha.2 rfl)

lemma not_shutDown_step (hsound : Sound s) (hs : svc.step s a = some s')
    (ha : ¬ LeavesNothingPlaying s a) : ¬ ShutDown s' := by
  -- The service returns, and its pipeline stays as it is.
  have hleft : ∀ ret, s' = { s with phase := .returned ret } → s.pipeline = .playing →
      ¬ ShutDown s' := by
    rintro ret rfl hplaying hshut
    have hnull : s.pipeline = .null := hshut ret rfl (hsound.wasPlaying hplaying)
    rw [hplaying] at hnull
    cases hnull
  have hbad : a = .setNull false ∨ a = .drop ∧ s.pipeline = .playing := by
    by_contra hgood
    obtain ⟨hnull, hdrop⟩ := not_or.mp hgood
    exact ha ⟨hnull, fun heq hplaying => hdrop ⟨heq, hplaying⟩⟩
  rcases hbad with rfl | ⟨rfl, hplaying⟩
  · cases steps_of_step hs with
    | notNull hphase => exact hleft _ rfl (hsound.running (Or.inr (Or.inr hphase))).2
  · cases steps_of_step hs with
    | neverPolled => exact hleft _ rfl hplaying
    | drop => exact hleft _ rfl hplaying

lemma shutDown_iff (r : Run svc.system) :
    (∀ s, r.Visits s → ShutDown s) ↔ ∀ s a, r.Takes s a → LeavesNothingPlaying s a := by
  apply r.forall_visits_iff (J := ShutDown)
  · intro ret hret
    cases hret
  · intro s _ hshut
    exact hshut
  · intro s a s' hr hshut hs ha
    exact shutDown_step (sound_of_reachable hr) hshut hs ha
  · intro s a s' hr hs ha
    exact not_shutDown_step (sound_of_reachable hr) hs ha

/-- Only what runs under `run_until_cancelled` has polls that it looks at. -/
lemma dropped_of_pending (h : svc.system.Reachable s) {ret : ρ} (hphase : s.phase = .pending ret) :
    svc.dropped = some ret := by
  refine h.invariant (P := fun s : ServiceState ρ => ∀ ret, s.phase = .pending ret →
    svc.dropped = some ret) (fun _ hphase => by cases hphase) ?_ ret hphase
  intro s a s' _ ih hs ret hphase
  cases steps_of_step hs with
  | cancel => exact ih ret hphase
  | continues => exact ih ret hphase
  | pends hdropped => exact Phase.pending.inj hphase ▸ hdropped
  | yields hdropped => exact Phase.pending.inj hphase ▸ hdropped
  | _ => cases hphase

lemma ne_drop_of_takes (hnever : svc.dropped = none) {r : Run svc.system} (h : r.Takes s a) :
    a ≠ .drop := by
  obtain ⟨s', hs, -⟩ := h.exists_step
  have hs : svc.step s a = some s' := hs
  have hnone : ∀ ret, svc.dropped ≠ some ret := by
    intro ret
    rw [hnever]
    exact (Option.some_ne_none ret).symm
  rintro rfl
  cases steps_of_step hs with
  | neverPolled hdropped => exact hnone _ hdropped
  | drop hphase => exact hnone _ (dropped_of_pending h.visits.reachable hphase)

end PipelineService

/-- **The pipeline is shut down exactly while the decoder is not dropped in its loop.**  In a run
of the decoding service the pipeline, once in `Playing`, has been set to `Null` by the time the
service returns, if and only if `run_until_cancelled` does not drop the decoder while its pipeline
is in `Playing`, which it does when a poll of the decoder ends without a result and the token has
fired by then, and GStreamer accepts the change to `Null`.  Nothing drops the encoding main loop,
so for it the second condition is enough. -/
theorem pipeline_shut_down_iff (dec : Run DecodingBackend.run.system)
    (enc : Run Stream.mainLoop.system) :
    ((∀ s, dec.Visits s → ∀ ret, s.phase = .returned ret → s.wasPlaying = true →
          s.pipeline = .null) ↔
        ∀ s a, dec.Takes s a → a ≠ .setNull false ∧ (a = .drop → s.pipeline ≠ .playing)) ∧
    ((∀ s, enc.Visits s → ∀ ret, s.phase = .returned ret → s.wasPlaying = true →
          s.pipeline = .null) ↔
        ∀ s a, enc.Takes s a → a ≠ .setNull false) := by
  refine ⟨PipelineService.shutDown_iff dec, ?_⟩
  apply (PipelineService.shutDown_iff enc).trans
  constructor
  · intro h s a htakes
    exact (h s a htakes).1
  · intro h s a htakes
    refine ⟨h s a htakes, ?_⟩
    intro heq
    exact absurd heq (PipelineService.ne_drop_of_takes rfl htakes)

/-- A poll of the decoder finds no branch ready, and the token fires before `run_until_cancelled`
looks at it. -/
theorem not_pipeline_shut_down :
    ¬ ∀ (r : Run DecodingBackend.run.system) (s : ServiceState (TaskRet AnyhowError)),
      r.Visits s → ∀ ret, s.phase = .returned ret → s.wasPlaying = true → s.pipeline = .null := by
  intro hall
  let gst : OggDec.BufferCalls :=
    { withSize := fun _ => .ok (), getMut := true, mapWritable := true,
      pushBuffer := fun _ => .ok () }
  let r : Run DecodingBackend.run.system := .ofActions
    [.setPlaying true, .pends, .suspends, .branch (.packet [42] gst),
      .branch (.message (.tag none)), .pends, .cancel, .drop] rfl
  have hnull : r.final.pipeline = .null := hall r r.final r.visits_final none rfl rfl
  cases hnull

/-- The decoder's own loop sees a token that fires while it is suspended. -/
example :
    DecodingBackend.run.system.exec DecodingBackend.run.system.init
      [.setPlaying true, .pends, .suspends, .cancel, .drop] = none := rfl

end P2PRadio
