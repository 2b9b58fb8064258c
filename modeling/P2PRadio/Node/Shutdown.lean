import P2PRadio.Node.Failures

/-!
# How a node reports its shutdown

`None` is a cancelled task, and `main` takes a node that returns it as stopped on request.  Both
backends break this convention.  `EncodingBackend::run` returns an error however its loops have
ended.  `DecodingBackend::run` returns one when the decoder's own loop sees the token before
`run_until_cancelled` does, and sets its pipeline to `Null`.  The `select!`s above a backend may
pick any of the tasks that have finished, so a requested shutdown is reported as a failure when
they pick the backend's end (`not_shutdown_reported`).  `shutdown_reported_iff` says that it is
reported as a cancellation in all other runs.
-/

namespace P2PRadio

open Transition Supervision

/-! ## A requested shutdown -/

/-- GStreamer refuses no change of state, and nothing ends the loop. -/
def PipelineService.goesOn {β ρ : Type} (svc : PipelineService β ρ) : ServiceAction β → Bool
  | .setPlaying accepted => accepted
  | .branch b => !svc.breaks b
  | .setNull _ => false
  | _ => true

/-- Before the token the main loop goes on.  The RPC server, which is not told of the token, does
not stop. -/
def StreamerEnvAction.requested (cancelled : Bool) : StreamerEnvAction → Bool
  | .rpcStops => false
  | .mainLoop a => cancelled || Stream.mainLoop.goesOn a
  | _ => true

/-- Before the token the decoder goes on. -/
def ListenerEnvAction.requested (cancelled : Bool) : ListenerEnvAction → Bool
  | .rpcStops => false
  | .decoder a => cancelled || DecodingBackend.run.goesOn a
  | _ => true

/-- A streamer that stops on request: no task fails, exits or panics before the token has
fired, and none panics afterwards. -/
def streamerShutdown : Program StreamerTask.Ret StreamerEnv StreamerEnvAction JoinError :=
  streamerNode.restrict fun s a => a.requested s.env.cancelled

def listenerShutdown : Program ListenerTask.Ret ListenerEnv ListenerEnvAction JoinError :=
  listenerNode.restrict fun s a => a.requested s.env.cancelled

/-! ## Results -/

/-- A task that has returned is reported as cancelled if it says so. -/
lemma handleToMainHandle_ok_eq_none_iff {ε : Type} {into : ε → AppError} {ret : TaskRet ε} :
    handleToMainHandle into (.ok ret) = none ↔ ret = none := by
  rcases ret with _ | err | e
  · simp [handleToMainHandle]
  · simp [handleToMainHandle]
  · exact e.elim

lemma length_readyOn {ρ σ : Type} (handle : Option (Except JoinError σ))
    (ret : Except JoinError σ → ρ) : (readyOn handle ret).length = handle.isSome.toNat := by
  cases handle <;> rfl

/-- A branch stands among the first of those that are ready, or after them. -/
lemma getElem?_append_cases {ρ : Type} {first rest : List ρ} {branch : ℕ} {ret : ρ}
    (h : (first ++ rest)[branch]? = some ret) :
    branch < first.length ∧ first[branch]? = some ret ∨
      first.length ≤ branch ∧ ret ∈ rest := by
  by_cases hlt : branch < first.length
  · rw [List.getElem?_append_left hlt] at h
    exact Or.inl ⟨hlt, h⟩
  · have hle := Nat.le_of_not_lt hlt
    rw [List.getElem?_append_right hle] at h
    exact Or.inr ⟨hle, List.mem_of_getElem? h⟩

/-! ## The pipelines -/

namespace PipelineService

variable {β ρ : Type} {svc : PipelineService β ρ} {s s' : ServiceState ρ} {a : ServiceAction β}

/-- Before the token a service that goes on is not over. -/
lemma not_over_of_step (hs : svc.step s a = some s') (ha : svc.goesOn a) (hc : ¬ s.cancelled)
    (h : ¬ s.phase.Over) : ¬ s'.phase.Over := by
  cases steps_of_step hs with
  | cancel => exact h
  | playing => exact id
  | notPlaying => cases ha
  | continues => exact h
  | breaks _ hbreaks =>
    simp only [goesOn, hbreaks, Bool.not_true] at ha
    cases ha
  | pends => exact id
  | yields => exact id
  | suspends => exact id
  | null => cases ha
  | notNull => cases ha
  | neverPolled _ _ hcancelled => exact absurd hcancelled hc
  | drop _ hcancelled => exact absurd hcancelled hc

end PipelineService

/-- If nothing but the token may happen to a node, the token is what has happened. -/
lemma cancelled_of_disturbed {ρ : Type} {cancelled rpcStopped : Bool} {panicked : Prop}
    {phase : Phase ρ} (hgoes : rpcStopped = false ∧ (cancelled ∨ ¬ phase.Over))
    (hpanicked : ¬ panicked)
    (hd : cancelled ∨ rpcStopped ∨ panicked ∨ ∃ ret, phase = .returned ret) : cancelled := by
  obtain ⟨hstopped, hover⟩ := hgoes
  rcases hd with hcancelled | hrpc | hpanic | ⟨ret, rfl⟩
  · exact hcancelled
  · exact absurd (hstopped.symm.trans hrpc) Bool.false_ne_true
  · exact absurd hpanic hpanicked
  · exact hover.resolve_right (not_not.mpr trivial)

/-- The function that `run_until_cancelled` runs returns. -/
def ServiceAction.Returns {β : Type} : ServiceAction β → Prop
  | .setPlaying accepted => ¬ accepted
  | .setNull _ => True
  | _ => False

namespace DecodingBackend

variable {s s' : ServiceState (TaskRet AnyhowError)} {a : ServiceAction OggDec.Branch}

/-- The decoder's function returns nothing but errors. -/
lemma returned_of_step (hs : run.step s a = some s') (ha : a.Returns) :
    ∃ err, s'.phase = .returned (some (.error err)) := by
  cases PipelineService.steps_of_step hs with
  | notPlaying => exact ⟨_, rfl⟩
  | null => exact ⟨_, rfl⟩
  | notNull => exact ⟨_, rfl⟩
  | playing => exact absurd rfl ha
  | _ => exact ha.elim

/-- The decoder ends in its function's return, or because the function is dropped. -/
lemma returns_of_step (hr : run.system.Reachable s) (hs : run.step s a = some s')
    {ret : TaskRet AnyhowError} (hret : s'.phase = .returned ret) :
    s.phase = .returned ret ∨ a.Returns ∨ ret = none := by
  cases PipelineService.steps_of_step hs with
  | cancel => exact Or.inl hret
  | continues => exact Or.inl hret
  | notPlaying => exact Or.inr (Or.inl Bool.false_ne_true)
  | null => exact Or.inr (Or.inl trivial)
  | notNull => exact Or.inr (Or.inl trivial)
  | neverPolled hdropped =>
    obtain rfl := Phase.returned.inj hret
    exact Or.inr (Or.inr (Option.some.inj hdropped).symm)
  | drop hphase =>
    obtain rfl := Phase.returned.inj hret
    have hdropped := PipelineService.dropped_of_pending hr hphase
    exact Or.inr (Or.inr (Option.some.inj hdropped).symm)
  | _ => cases hret

end DecodingBackend

/-! ## The streamer -/

namespace StreamerGroup

variable {s s' : StreamerGroup}

/-- The `select!` of `StreamerNode::run` picks the backend, which comes last. -/
def PicksBackend (s : StreamerGroup) (branch : ℕ) : Prop :=
  (s.handle .swarm).isSome.toNat + (s.handle .server).isSome.toNat ≤ branch

/-- The RPC server goes on, and before the token so does the main loop. -/
lemma goesOn_of_shutdown (h : streamerShutdown.system.Reachable s) :
    s.env.rpcStopped = false ∧ (s.env.cancelled ∨ ¬ s.env.mainLoop.phase.Over) := by
  refine h.invariant (P := fun s : StreamerGroup =>
    s.env.rpcStopped = false ∧ (s.env.cancelled ∨ ¬ s.env.mainLoop.phase.Over))
    ⟨rfl, Or.inr id⟩ ?_
  rintro s a s' - ⟨hstopped, hover⟩ hs
  cases Program.steps_of_step hs with
  | returns => exact ⟨hstopped, hover⟩
  | panics => exact ⟨hstopped, hover⟩
  | @env a env henv =>
    obtain ⟨hrequested, henv⟩ := Option.ite_none_right_eq_some.mp henv
    cases a with
    | cancel =>
      obtain rfl := Option.some.inj henv
      exact ⟨hstopped, Or.inl rfl⟩
    | rpcStops => cases hrequested
    | sendFails =>
      obtain ⟨-, henv⟩ := Option.ite_none_right_eq_some.mp henv
      obtain rfl := Option.some.inj henv
      exact ⟨hstopped, hover⟩
    | mainLoop a =>
      obtain ⟨-, henv⟩ := Option.ite_none_right_eq_some.mp henv
      obtain ⟨mainLoop, hstep, rfl⟩ := Option.map_eq_some_iff.mp henv
      refine ⟨hstopped, ?_⟩
      by_cases hc : s.env.cancelled
      · exact Or.inl (PipelineService.cancelled_of_step hstep hc)
      · have hgoes := (Bool.or_eq_true_iff.mp hrequested).resolve_left hc
        exact Or.inr (PipelineService.not_over_of_step hstep hgoes hc (hover.resolve_left hc))

/-- No task ends before the token has fired. -/
lemma cancelled_of_handle (h : streamerShutdown.system.Reachable s) {t : StreamerTask}
    {res : Except JoinError t.Ret} (hres : s.handle t = some res) : s.env.cancelled :=
  cancelled_of_disturbed (goesOn_of_shutdown h) (Program.not_panicked_of_restrict h)
    (disturbed_of_handle (Program.reachable_of_restrict h) hres)

/-- What the tasks above the loops report: a cancellation, but for the backend. -/
def Reports : (t : StreamerTask) → t.Ret → Prop
  | .swarm, ret => ret = (none : TaskRet Empty)
  | .serverListener, ret => ret = (none : TaskRet Empty)
  | .server, ret => ret = (none : TaskRet AppError)
  | .backend, ret => ret ≠ (none : TaskRet AppError)
  | _, _ => True

/-- One case per task and branch. -/
lemma reports_of_ready (hr : streamerShutdown.system.Reachable s)
    (ih : ∀ t ret, s.handle t = some (.ok ret) → Reports t ret) (t : StreamerTask) :
    ∀ ret ∈ s.ready t, Reports t ret := by
  intro ret hret
  cases t with
  | swarm => exact (mem_readyIf.mp hret).2
  | serverListener => exact (mem_readyIf.mp hret).2
  | server =>
    rcases List.mem_append.mp hret with hret | hret
    · rcases List.mem_append.mp hret with hret | hret
      · have hstopped := (mem_readyIf.mp hret).1
        exact absurd ((goesOn_of_shutdown hr).1.symm.trans hstopped) Bool.false_ne_true
      · obtain ⟨res, hres, rfl⟩ := mem_readyOn.mp hret
        obtain ⟨ret, rfl⟩ := Program.exists_ret_of_restrict hr hres
        obtain rfl : ret = none := ih .serverListener ret hres
        rfl
    · exact (mem_readyIf.mp hret).2
  | backend =>
    rcases List.mem_append.mp hret with hret | hret
    · obtain ⟨res, -, rfl⟩ := mem_readyOn.mp hret
      exact Option.some_ne_none _
    · obtain ⟨res, -, rfl⟩ := mem_readyOn.mp hret
      exact Option.some_ne_none _
  | mainLoop => trivial
  | msgLoop => trivial
  | start => trivial

lemma reports_of_reachable (h : streamerShutdown.system.Reachable s) :
    ∀ t ret, s.handle t = some (.ok ret) → Reports t ret :=
  Program.returned_invariant (fun _ _ _ _ _ _ hreports => hreports)
    (fun _ hr ih t => reports_of_ready hr ih t) h

/-- `Node::start` reports a cancellation when it picks another task than the backend. -/
lemma eq_none_iff_of_ready (h : streamerShutdown.system.Reachable s) {branch : ℕ}
    {ret : TaskRet AppError} (hret : (s.ready .start)[branch]? = some ret) :
    ret = none ↔ ¬ s.PicksBackend branch := by
  have hreports := reports_of_reachable h
  have hlength : (readyOn (s.handle .swarm) handleLoopCannotFailHandle ++
      readyOn (s.handle .server) (handleToMainHandle id)).length =
        (s.handle .swarm).isSome.toNat + (s.handle .server).isSome.toNat :=
    List.length_append.trans (congrArg₂ (· + ·) (length_readyOn _ _) (length_readyOn _ _))
  rcases getElem?_append_cases hret with ⟨hlt, hret⟩ | ⟨hle, hret⟩
  · refine iff_of_true ?_ (Nat.not_le_of_lt (hlt.trans_eq hlength))
    rcases List.mem_append.mp (List.mem_of_getElem? hret) with hret | hret
    · obtain ⟨res, hres, rfl⟩ := mem_readyOn.mp hret
      obtain ⟨ret, rfl⟩ := Program.exists_ret_of_restrict h hres
      obtain rfl : ret = none := hreports .swarm ret hres
      rfl
    · obtain ⟨res, hres, rfl⟩ := mem_readyOn.mp hret
      obtain ⟨ret, rfl⟩ := Program.exists_ret_of_restrict h hres
      obtain rfl : ret = none := hreports .server ret hres
      rfl
  · refine iff_of_false ?_ (not_not.mpr (hlength.symm.trans_le hle))
    obtain ⟨res, hres, rfl⟩ := mem_readyOn.mp hret
    obtain ⟨ret, rfl⟩ := Program.exists_ret_of_restrict h hres
    have hne : ret ≠ none := hreports .backend ret hres
    intro hnone
    exact hne (handleToMainHandle_ok_eq_none_iff.mp hnone)

/-- After the token a streamer returns. -/
lemma returns_of_cancelled (hr : streamerShutdown.system.Reachable s) (hc : s.env.cancelled)
    {as : List (TaskAction StreamerTask StreamerEnvAction JoinError)} (has : ∀ a ∈ as, Internal a)
    (hexec : streamerShutdown.system.exec s as = some s') :
    as.length ≤ 10 ∧ (streamerShutdown.system.Quiescent Internal s' →
      ∃ ret, s'.handle .start = some (.ok ret)) := by
  have hallowed : ∀ (t : StreamerGroup) (a : StreamerEnvAction), t.env.cancelled → a.Internal →
      a.requested t.env.cancelled := by
    intro t a hc ha
    cases a with
    | mainLoop a => exact Bool.or_eq_true_iff.mpr (Or.inl hc)
    | cancel | rpcStops | sendFails => exact ha.elim
  refine ⟨length_le_of_exec (Program.reachable_of_restrict hr) has
    (Program.exec_of_restrict hexec), fun hq => ?_⟩
  obtain ⟨hr', hc', hq'⟩ := Program.rest_of_restrict (Q := fun t : StreamerGroup => t.env.cancelled)
    (fun _ _ _ hc hs => (extends_of_step hs).cancelled hc) hallowed hr hc hexec hq
  exact exists_start_of_disturbed hr' hq' (Or.inl hc')

end StreamerGroup

/-! ## The listener -/

namespace ListenerGroup

variable {s s' : ListenerGroup}

/-- The `select!` of `ListenerServerService::run` picks the backend, which comes first. -/
def PicksBackend (s : ListenerGroup) (branch : ℕ) : Prop :=
  branch < (s.handle .backend).isSome.toNat

/-- The `select!` of `ListenerNode::run` picks the server, which comes last. -/
def PicksServer (s : ListenerGroup) (branch : ℕ) : Prop :=
  (s.handle .swarm).isSome.toNat ≤ branch

lemma goesOn_of_shutdown (h : listenerShutdown.system.Reachable s) :
    s.env.rpcStopped = false ∧ (s.env.cancelled ∨ ¬ s.env.decoder.phase.Over) := by
  refine h.invariant (P := fun s : ListenerGroup =>
    s.env.rpcStopped = false ∧ (s.env.cancelled ∨ ¬ s.env.decoder.phase.Over))
    ⟨rfl, Or.inr id⟩ ?_
  rintro s a s' - ⟨hstopped, hover⟩ hs
  cases Program.steps_of_step hs with
  | returns => exact ⟨hstopped, hover⟩
  | panics => exact ⟨hstopped, hover⟩
  | @env a env henv =>
    obtain ⟨hrequested, henv⟩ := Option.ite_none_right_eq_some.mp henv
    cases a with
    | cancel =>
      obtain rfl := Option.some.inj henv
      exact ⟨hstopped, Or.inl rfl⟩
    | rpcStops => cases hrequested
    | sends | sent | sendFails =>
      obtain ⟨-, henv⟩ := Option.ite_none_right_eq_some.mp henv
      obtain rfl := Option.some.inj henv
      exact ⟨hstopped, hover⟩
    | decoder a =>
      obtain ⟨-, henv⟩ := Option.ite_none_right_eq_some.mp henv
      obtain ⟨decoder, hstep, rfl⟩ := Option.map_eq_some_iff.mp henv
      refine ⟨hstopped, ?_⟩
      by_cases hc : s.env.cancelled
      · exact Or.inl (PipelineService.cancelled_of_step hstep hc)
      · have hgoes := (Bool.or_eq_true_iff.mp hrequested).resolve_left hc
        exact Or.inr (PipelineService.not_over_of_step hstep hgoes hc (hover.resolve_left hc))

/-- No task ends before the token has fired. -/
lemma cancelled_of_handle (h : listenerShutdown.system.Reachable s) {t : ListenerTask}
    {res : Except JoinError t.Ret} (hres : s.handle t = some res) : s.env.cancelled :=
  cancelled_of_disturbed (goesOn_of_shutdown h) (Program.not_panicked_of_restrict h)
    (disturbed_of_handle (Program.reachable_of_restrict h) hres)

/-- The tasks beside the backend report a cancellation, and the RPC server does not stop. -/
def Reports : (t : ListenerTask) → t.Ret → Prop
  | .swarm, ret => ret = (none : TaskRet Empty)
  | .axumServer, ret => ret = (none : TaskRet Empty)
  | .gossipBackendBridge, ret => ret = (none : TaskRet Empty)
  | .serverHandle, _ => False
  | _, _ => True

lemma reports_of_ready (hr : listenerShutdown.system.Reachable s) (t : ListenerTask) :
    ∀ ret ∈ s.ready t, Reports t ret := by
  intro ret hret
  cases t with
  | swarm => exact (mem_readyIf.mp hret).2
  | axumServer => exact (mem_readyIf.mp hret).2
  | gossipBackendBridge => exact (mem_readyIf.mp hret).2
  | serverHandle =>
    have hstopped := (mem_readyIf.mp hret).1
    exact absurd ((goesOn_of_shutdown hr).1.symm.trans hstopped) Bool.false_ne_true
  | backend => trivial
  | server => trivial
  | start => trivial

lemma reports_of_reachable (h : listenerShutdown.system.Reachable s) :
    ∀ t ret, s.handle t = some (.ok ret) → Reports t ret :=
  Program.returned_invariant (fun _ _ _ _ _ _ hreports => hreports)
    (fun _ hr _ t => reports_of_ready hr t) h

/-- The server reports what the backend does, or a cancellation. -/
lemma server_cases (h : listenerShutdown.system.Reachable s) {branch : ℕ}
    {ret : TaskRet AppError} (hret : (s.ready .server)[branch]? = some ret) :
    ¬ s.PicksBackend branch ∧ ret = none ∨ s.PicksBackend branch ∧
      ∃ ret', s.handle .backend = some (.ok ret') ∧ (ret = none ↔ ret' = none) := by
  have hreports := reports_of_reachable h
  have hassoc : s.ready .server =
      readyOn (s.handle .backend) (handleToMainHandle .anyhow) ++
        ((readyOn (s.handle .axumServer) (handleToMainHandle Empty.elim) ++
          readyOn (s.handle .gossipBackendBridge) handleLoopCannotFailHandle) ++
          readyOn (s.handle .serverHandle) fun _ => some (.error .taskExited)) :=
    (congrArg (· ++ _) (List.append_assoc _ _ _)).trans (List.append_assoc _ _ _)
  rw [hassoc] at hret
  rcases getElem?_append_cases hret with ⟨hlt, hret⟩ | ⟨hle, hret⟩
  · obtain ⟨res, hres, rfl⟩ := mem_readyOn.mp (List.mem_of_getElem? hret)
    obtain ⟨ret, rfl⟩ := Program.exists_ret_of_restrict h hres
    exact Or.inr ⟨hlt.trans_eq (length_readyOn _ _), ret, hres, handleToMainHandle_ok_eq_none_iff⟩
  · refine Or.inl ⟨Nat.not_lt_of_le ((length_readyOn _ _).symm.trans_le hle), ?_⟩
    rcases List.mem_append.mp hret with hret | hret
    · rcases List.mem_append.mp hret with hret | hret
      · obtain ⟨res, hres, rfl⟩ := mem_readyOn.mp hret
        obtain ⟨ret, rfl⟩ := Program.exists_ret_of_restrict h hres
        obtain rfl : ret = none := hreports .axumServer ret hres
        rfl
      · obtain ⟨res, hres, rfl⟩ := mem_readyOn.mp hret
        obtain ⟨ret, rfl⟩ := Program.exists_ret_of_restrict h hres
        obtain rfl : ret = none := hreports .gossipBackendBridge ret hres
        rfl
    · obtain ⟨res, hres, rfl⟩ := mem_readyOn.mp hret
      obtain ⟨ret, rfl⟩ := Program.exists_ret_of_restrict h hres
      exact (hreports .serverHandle ret hres).elim

/-- `Node::start` reports what the server does, or a cancellation. -/
lemma start_cases (h : listenerShutdown.system.Reachable s) {branch : ℕ}
    {ret : TaskRet AppError} (hret : (s.ready .start)[branch]? = some ret) :
    ¬ s.PicksServer branch ∧ ret = none ∨ s.PicksServer branch ∧
      ∃ ret', s.handle .server = some (.ok ret') ∧ (ret = none ↔ ret' = none) := by
  rcases getElem?_append_cases hret with ⟨hlt, hret⟩ | ⟨hle, hret⟩
  · refine Or.inl ⟨Nat.not_le_of_lt (hlt.trans_eq (length_readyOn _ _)), ?_⟩
    obtain ⟨res, hres, rfl⟩ := mem_readyOn.mp (List.mem_of_getElem? hret)
    obtain ⟨ret, rfl⟩ := Program.exists_ret_of_restrict h hres
    obtain rfl : ret = none := reports_of_reachable h .swarm ret hres
    rfl
  · obtain ⟨res, hres, rfl⟩ := mem_readyOn.mp hret
    obtain ⟨ret, rfl⟩ := Program.exists_ret_of_restrict h hres
    exact Or.inr ⟨(length_readyOn _ _).symm.trans_le hle, ret, hres,
      handleToMainHandle_ok_eq_none_iff⟩

/-- What a run reaches stays to its end. -/
lemma extends_final {r : Run listenerShutdown.system} (hv : r.Visits s) : s.Extends r.final := by
  obtain ⟨as, has⟩ := hv.exists_exec
  exact extends_of_exec (Program.exec_of_restrict has)

/-- A decoder that has returned an error was not dropped. -/
lemma exists_takes_of_returned {r : Run listenerShutdown.system} (hv : r.Visits s)
    {ret : TaskRet AnyhowError} (hret : s.env.decoder.phase = .returned ret) (hne : ret ≠ none) :
    ∃ s₀ a, r.Takes s₀ (.env (.decoder a)) ∧ a.Returns := by
  refine r.invariant_of_takes (P := fun s => s.env.decoder.phase = .returned ret →
    ∃ s₀ a, r.Takes s₀ (.env (.decoder a)) ∧ a.Returns) nofun ?_ hv hret
  intro s a s' htakes ih hs hret
  cases Program.steps_of_step hs with
  | returns => exact ih hret
  | panics => exact ih hret
  | @env a env henv =>
    obtain ⟨-, henv⟩ := Option.ite_none_right_eq_some.mp henv
    cases a with
    | cancel =>
      obtain rfl := Option.some.inj henv
      exact ih hret
    | rpcStops =>
      obtain rfl := Option.some.inj henv
      exact ih hret
    | sends | sent | sendFails =>
      obtain ⟨-, henv⟩ := Option.ite_none_right_eq_some.mp henv
      obtain rfl := Option.some.inj henv
      exact ih hret
    | decoder a =>
      obtain ⟨-, henv⟩ := Option.ite_none_right_eq_some.mp henv
      obtain ⟨decoder, hstep, rfl⟩ := Option.map_eq_some_iff.mp henv
      have hr := simulates_decoder.reachable (Program.reachable_of_restrict htakes.visits.reachable)
      rcases DecodingBackend.returns_of_step hr hstep hret with hold | hreturns | hnone
      · exact ih hold
      · exact ⟨s, a, htakes, hreturns⟩
      · exact absurd hnone hne

/-- After the token a listener returns. -/
lemma returns_of_cancelled (hr : listenerShutdown.system.Reachable s) (hc : s.env.cancelled)
    {as : List (TaskAction ListenerTask ListenerEnvAction JoinError)} (has : ∀ a ∈ as, Internal a)
    (hexec : listenerShutdown.system.exec s as = some s') :
    as.length ≤ 11 ∧ (listenerShutdown.system.Quiescent Internal s' →
      ∃ ret, s'.handle .start = some (.ok ret)) := by
  have hallowed : ∀ (t : ListenerGroup) (a : ListenerEnvAction), t.env.cancelled → a.Internal →
      a.requested t.env.cancelled := by
    intro t a hc ha
    cases a with
    | decoder a => exact Bool.or_eq_true_iff.mpr (Or.inl hc)
    | sendFails => rfl
    | cancel | rpcStops | sends | sent => exact ha.elim
  refine ⟨length_le_of_exec (Program.reachable_of_restrict hr) has
    (Program.exec_of_restrict hexec), fun hq => ?_⟩
  obtain ⟨hr', hc', hq'⟩ := Program.rest_of_restrict (Q := fun t : ListenerGroup => t.env.cancelled)
    (fun _ _ _ hc hs => (extends_of_step hs).cancelled hc) hallowed hr hc hexec hq
  exact exists_start_of_disturbed hr' hq' (Or.inl hc')

/-- The decoder's return is seen at the end of the run. -/
lemma returned_final {r : Run listenerShutdown.system} {a : ServiceAction OggDec.Branch}
    (h : r.Takes s (.env (.decoder a))) (ha : a.Returns) :
    ∃ err, r.final.env.decoder.phase = .returned (some (.error err)) := by
  obtain ⟨s', hs, hv⟩ := h.exists_step
  obtain ⟨env, henv, rfl⟩ := Option.map_eq_some_iff.mp hs
  obtain ⟨-, henv⟩ := Option.ite_none_right_eq_some.mp henv
  obtain ⟨-, henv⟩ := Option.ite_none_right_eq_some.mp henv
  obtain ⟨decoder, hstep, rfl⟩ := Option.map_eq_some_iff.mp henv
  obtain ⟨err, herr⟩ := DecodingBackend.returned_of_step hstep ha
  exact ⟨err, (extends_final hv).returned _ herr⟩

end ListenerGroup

/-! ## What is reported -/

lemma streamer_shutdown_reported_iff (r : Run streamerShutdown.system) :
    (∀ s, r.Visits s → ∀ ret, s.handle .start = some (.ok ret) → ret = none) ↔
      ∀ s branch, r.Takes s (.returns .start branch) → ¬ StreamerGroup.PicksBackend s branch := by
  constructor
  · intro hnone s branch htakes
    obtain ⟨ret, s', hready, hv, hret⟩ := Program.exists_handle_of_takes htakes
    exact (StreamerGroup.eq_none_iff_of_ready htakes.visits.reachable hready).mp
      (hnone s' hv ret hret)
  · intro hpicks s hv ret hret
    obtain ⟨s₀, branch, htakes, hready⟩ := Program.exists_takes_of_handle hv hret
    exact (StreamerGroup.eq_none_iff_of_ready htakes.visits.reachable hready).mpr
      (hpicks s₀ branch htakes)

lemma listener_shutdown_reported_iff (r : Run listenerShutdown.system) :
    (∀ s, r.Visits s → ∀ ret, s.handle .start = some (.ok ret) → ret = none) ↔
      ¬ ((∃ s a, r.Takes s (.env (.decoder a)) ∧ a.Returns) ∧
        (∃ s branch, r.Takes s (.returns .server branch) ∧ ListenerGroup.PicksBackend s branch) ∧
        ∃ s branch, r.Takes s (.returns .start branch) ∧ ListenerGroup.PicksServer s branch) := by
  constructor
  · rintro hnone ⟨⟨s₁, a, hdecoder, hreturns⟩, ⟨s₂, branch₂, hserver, hbackend⟩,
      s₃, branch₃, hstart, hpicks⟩
    -- The three steps are compared in the last state of the run.
    obtain ⟨err, hphase⟩ := ListenerGroup.returned_final hdecoder hreturns
    obtain ⟨ret₂, s₂', hready₂, hv₂, hret₂⟩ := Program.exists_handle_of_takes hserver
    obtain ⟨ret₃, s₃', hready₃, hv₃, hret₃⟩ := Program.exists_handle_of_takes hstart
    rcases ListenerGroup.server_cases hserver.visits.reachable hready₂ with
      ⟨hother, -⟩ | ⟨-, ret₁, hret₁, hiff₂⟩
    · exact hother hbackend
    rcases ListenerGroup.start_cases hstart.visits.reachable hready₃ with
      ⟨hother, -⟩ | ⟨-, ret, hret, hiff₃⟩
    · exact hother hpicks
    have hreturned : s₂.env.decoder.phase = .returned ret₁ := ListenerGroup.tells_of_reachable
      (Program.reachable_of_restrict hserver.visits.reachable) .backend ret₁ hret₁
    have hfinal := (ListenerGroup.extends_final hserver.visits).returned ret₁ hreturned
    have hleft := (ListenerGroup.extends_final hv₂).handle .server _ hret₂
    have hright := (ListenerGroup.extends_final hstart.visits).handle .server _ hret
    obtain rfl := Except.ok.inj (Option.some.inj (hleft.symm.trans hright))
    obtain rfl := hiff₂.mp (hiff₃.mp (hnone s₃' hv₃ ret₃ hret₃))
    rw [hphase] at hfinal
    cases hfinal
  · intro hnever s hv ret hret
    by_contra hne
    obtain ⟨s₃, branch₃, hstart, hready₃⟩ := Program.exists_takes_of_handle hv hret
    rcases ListenerGroup.start_cases hstart.visits.reachable hready₃ with
      ⟨-, hnone⟩ | ⟨hpicks, ret₂, hret₂, hiff₃⟩
    · exact hne hnone
    obtain ⟨s₂, branch₂, hserver, hready₂⟩ := Program.exists_takes_of_handle hstart.visits hret₂
    rcases ListenerGroup.server_cases hserver.visits.reachable hready₂ with
      ⟨-, hnone⟩ | ⟨hbackend, ret₁, hret₁, hiff₂⟩
    · exact hne (hiff₃.mpr hnone)
    have hreturned : s₂.env.decoder.phase = .returned ret₁ := ListenerGroup.tells_of_reachable
      (Program.reachable_of_restrict hserver.visits.reachable) .backend ret₁ hret₁
    obtain ⟨s₁, a, hdecoder, hreturns⟩ := ListenerGroup.exists_takes_of_returned hserver.visits
      hreturned fun hnone => hne (hiff₃.mpr (hiff₂.mpr hnone))
    exact hnever ⟨⟨s₁, a, hdecoder, hreturns⟩, ⟨s₂, branch₂, hserver, hbackend⟩,
      s₃, branch₃, hstart, hpicks⟩

/-- **A requested shutdown is reported as a cancellation exactly when no backend's end is passed
on.**  `Node::start` of a streamer returns nothing but `None` if and only if it does not pick the
backend.  That of a listener does if and only if not all of this happens: the decoder's function
returns instead of being dropped, the server picks the backend, and `Node::start` picks the
server.  No task ends before the token has fired; afterwards the steps a node takes on its own are
bounded, in whatever order, and when none is left `Node::start` has returned. -/
theorem shutdown_reported_iff (str : Run streamerShutdown.system)
    (lis : Run listenerShutdown.system) :
    ((∀ s, str.Visits s → ∀ ret, s.handle .start = some (.ok ret) → ret = none) ↔
        ∀ s branch, str.Takes s (.returns .start branch) →
          ¬ StreamerGroup.PicksBackend s branch) ∧
    ((∀ s, lis.Visits s → ∀ ret, s.handle .start = some (.ok ret) → ret = none) ↔
        ¬ ((∃ s a, lis.Takes s (.env (.decoder a)) ∧ a.Returns) ∧
          (∃ s branch, lis.Takes s (.returns .server branch) ∧
            ListenerGroup.PicksBackend s branch) ∧
          ∃ s branch, lis.Takes s (.returns .start branch) ∧
            ListenerGroup.PicksServer s branch)) ∧
    (∀ s, str.Visits s → ∀ t res, s.handle t = some res → s.env.cancelled) ∧
    (∀ s, lis.Visits s → ∀ t res, s.handle t = some res → s.env.cancelled) ∧
    (str.final.env.cancelled → ∀ as s', (∀ a ∈ as, StreamerGroup.Internal a) →
      streamerShutdown.system.exec str.final as = some s' → as.length ≤ 10 ∧
        (streamerShutdown.system.Quiescent StreamerGroup.Internal s' →
          ∃ ret, s'.handle .start = some (.ok ret))) ∧
    (lis.final.env.cancelled → ∀ as s', (∀ a ∈ as, ListenerGroup.Internal a) →
      listenerShutdown.system.exec lis.final as = some s' → as.length ≤ 11 ∧
        (listenerShutdown.system.Quiescent ListenerGroup.Internal s' →
          ∃ ret, s'.handle .start = some (.ok ret))) := by
  refine ⟨streamer_shutdown_reported_iff str, listener_shutdown_reported_iff lis, ?_, ?_, ?_, ?_⟩
  · intro s hv t res hres
    exact StreamerGroup.cancelled_of_handle hv.reachable hres
  · intro s hv t res hres
    exact ListenerGroup.cancelled_of_handle hv.reachable hres
  · intro hc as s' has hexec
    exact StreamerGroup.returns_of_cancelled str.visits_final.reachable hc has hexec
  · intro hc as s' has hexec
    exact ListenerGroup.returns_of_cancelled lis.visits_final.reachable hc has hexec

/-- In both nodes the loop of the backend sees the token first, and all that wait for it pass its
end on as an error.  The token of the listener fires while its decoder is suspended. -/
theorem not_shutdown_reported :
    (¬ ∀ (r : Run streamerShutdown.system) (s : StreamerGroup), r.Visits s →
      ∀ ret, s.handle .start = some (.ok ret) → ret = none) ∧
    ¬ ∀ (r : Run listenerShutdown.system) (s : ListenerGroup), r.Visits s →
      ∀ ret, s.handle .start = some (.ok ret) → ret = none := by
  constructor
  · intro h
    let r : Run streamerShutdown.system := .ofActions
      [.env (.mainLoop (.setPlaying true)),
        .env (.mainLoop (.branch (.message (.tag (some "Artist - Song"))))), .env .cancel,
        .env (.mainLoop (.branch .cancelled)), .env (.mainLoop (.setNull true)),
        .returns .mainLoop 0, .returns .backend 0, .returns .start 0] rfl
    have hret : r.final.handle .start =
        some (.ok (some (.error (.anyhow (.msg "Main loop encoding terminated"))))) := rfl
    exact absurd (h r r.final r.visits_final _ hret) (Option.some_ne_none _)
  · intro h
    let r : Run listenerShutdown.system := .ofActions
      [.env (.decoder (.setPlaying true)), .env (.decoder .pends), .env (.decoder .suspends),
        .env .cancel, .env (.decoder (.branch .cancelled)), .env (.decoder (.setNull true)),
        .returns .backend 0, .returns .server 0, .returns .start 0] rfl
    have hret : r.final.handle .start =
        some (.ok (some (.error (.anyhow (.msg "Pipeline finished unexpectedly"))))) := rfl
    exact absurd (h r r.final r.visits_final _ hret) (Option.some_ne_none _)

end P2PRadio
