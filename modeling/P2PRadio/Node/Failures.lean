import P2PRadio.Backend.ServiceResults
import P2PRadio.Node.Tasks

/-!
# What a node reports, and that it ends

`Node::start` returns what the first of its tasks to end says.  In every run, whatever fails and
in whatever order, a cancellation is reported only after the token has fired, and an error only
if what it names has happened (`streamer_reports_cause`, `listener_reports_cause`).

No failure goes unnoticed: once a task has ended, the RPC server has stopped or the token has
fired, a node returns after a bounded number of steps of its own, in whatever order they are
taken, and after the token every other task ends as well (`streamer_ends`, `listener_ends`).
-/

namespace P2PRadio

open Transition Supervision

/-! ## Results with an explanation -/

/-- A cancellation has been requested, and an error has a cause. -/
def Explained (cancelled : Prop) (causes : AppError → Prop) (ret : TaskRet AppError) : Prop :=
  (ret = none → cancelled) ∧ ∀ err, ret = some (.error err) → causes err

section

variable {cancelled cancelled' : Prop} {causes causes' : AppError → Prop}

lemma explained_none (h : cancelled) : Explained cancelled causes none :=
  ⟨fun _ => h, nofun⟩

lemma explained_error {err : AppError} (h : causes err) :
    Explained cancelled causes (some (.error err)) := by
  refine ⟨nofun, fun err' herr => ?_⟩
  obtain rfl := Except.error.inj (Option.some.inj herr)
  exact h

lemma Explained.mono {ret : TaskRet AppError} (h : Explained cancelled causes ret)
    (hcancelled : cancelled → cancelled') (hcauses : ∀ err, causes err → causes' err) :
    Explained cancelled' causes' ret :=
  ⟨fun hret => hcancelled (h.1 hret), fun err herr => hcauses err (h.2 err herr)⟩

/-- A level that waits for a task passes its explanation on. -/
lemma explained_handleToMainHandle {ε : Type} {into : ε → AppError}
    {res : Except JoinError (TaskRet ε)}
    (hpanic : ∀ err, res = .error err → causes (.taskPanicked err))
    (hnone : res = .ok none → cancelled)
    (herr : ∀ err, res = .ok (some (.error err)) → causes (into err)) :
    Explained cancelled causes (handleToMainHandle into res) := by
  rcases res with err | _ | err | e
  · exact explained_error (hpanic err rfl)
  · exact explained_none (hnone rfl)
  · exact explained_error (herr err rfl)
  · exact e.elim

end

/-! ## What a streamer reports -/

namespace StreamerGroup

/-- What each error of a streamer names. -/
inductive Causes (s : StreamerGroup) : AppError → Prop
  | panicked {t : StreamerTask} {err : JoinError} : s.handle t = some (.error err) →
      s.Causes (.taskPanicked err)
  | exited : s.env.rpcStopped → s.Causes .taskExited
  | msgLoop {res : Except JoinError (Except AppError Unit)} : s.handle .msgLoop = some res →
      s.Causes (.anyhow (.msg "Message loop encoding terminated"))
  | mainLoop {res : Except JoinError Unit} : s.handle .mainLoop = some res →
      s.Causes (.anyhow (.msg "Main loop encoding terminated"))

/-- What a task that has returned tells of the others. -/
def Tells (s : StreamerGroup) : (t : StreamerTask) → t.Ret → Prop
  | .swarm, _ => s.env.cancelled
  | .serverListener, _ => s.env.cancelled
  | .server, ret => Explained s.env.cancelled s.Causes ret
  | .mainLoop, _ => ∃ res, s.env.mainLoop.phase = .returned res
  | .msgLoop, _ => (∃ res, s.handle .swarm = some res) ∨ ∃ res, s.handle .mainLoop = some res
  | .backend, ret => Explained s.env.cancelled s.Causes ret
  | .start, ret => Explained s.env.cancelled s.Causes ret

/-- What stays: the token, the RPC server's end, the main loop's end and every handle. -/
structure Extends (s s' : StreamerGroup) : Prop where
  cancelled : s.env.cancelled → s'.env.cancelled
  rpcStopped : s.env.rpcStopped → s'.env.rpcStopped
  returned : ∀ res, s.env.mainLoop.phase = .returned res →
    s'.env.mainLoop.phase = .returned res
  handle : ∀ t res, s.handle t = some res → s'.handle t = some res

variable {s s' : StreamerGroup} {a : TaskAction StreamerTask StreamerEnvAction JoinError}

lemma Extends.refl (s : StreamerGroup) : s.Extends s :=
  ⟨id, id, fun _ h => h, fun _ _ h => h⟩

lemma Extends.trans {t : StreamerGroup} (h : s.Extends s') (h' : s'.Extends t) : s.Extends t :=
  ⟨h'.cancelled ∘ h.cancelled, h'.rpcStopped ∘ h.rpcStopped,
    fun res hres => h'.returned res (h.returned res hres),
    fun t res hres => h'.handle t res (h.handle t res hres)⟩

lemma extends_of_step (hs : streamerNode.step s a = some s') : s.Extends s' := by
  have hhandle : ∀ t res, s.handle t = some res → s'.handle t = some res :=
    fun t res h => Program.handle_of_step hs h
  cases Program.steps_of_step hs with
  | @env a env henv =>
    cases a with
    | cancel =>
      obtain rfl := Option.some.inj henv
      exact ⟨fun _ => rfl, id, fun _ h => h, hhandle⟩
    | rpcStops =>
      obtain rfl := Option.some.inj henv
      exact ⟨id, fun _ => rfl, fun _ h => h, hhandle⟩
    | sendFails =>
      obtain ⟨-, henv⟩ := Option.ite_none_right_eq_some.mp henv
      obtain rfl := Option.some.inj henv
      exact ⟨id, id, fun _ h => h, hhandle⟩
    | mainLoop a =>
      obtain ⟨-, henv⟩ := Option.ite_none_right_eq_some.mp henv
      obtain ⟨mainLoop, hstep, rfl⟩ := Option.map_eq_some_iff.mp henv
      exact ⟨PipelineService.cancelled_of_step hstep, id,
        fun _ => PipelineService.phase_of_step_of_returned hstep, hhandle⟩
  | returns => exact ⟨id, id, fun _ h => h, hhandle⟩
  | panics => exact ⟨id, id, fun _ h => h, hhandle⟩

lemma extends_of_exec {as : List (TaskAction StreamerTask StreamerEnvAction JoinError)}
    (hexec : streamerNode.system.exec s as = some s') : s.Extends s' :=
  System.exec_invariant (P := fun t : StreamerGroup => s.Extends t) (.refl s)
    (fun _ _ _ _ ht hstep => ht.trans (extends_of_step hstep)) hexec

lemma Causes.mono (h : s.Extends s') {err : AppError} (hs : s.Causes err) : s'.Causes err := by
  cases hs with
  | panicked hpanic => exact .panicked (h.handle _ _ hpanic)
  | exited hstopped => exact .exited (h.rpcStopped hstopped)
  | msgLoop hres => exact .msgLoop (h.handle .msgLoop _ hres)
  | mainLoop hres => exact .mainLoop (h.handle .mainLoop _ hres)

lemma Tells.mono (h : s.Extends s') {t : StreamerTask} {ret : t.Ret} (hs : s.Tells t ret) :
    s'.Tells t ret := by
  cases t with
  | swarm => exact h.cancelled hs
  | serverListener => exact h.cancelled hs
  | server => exact Explained.mono hs h.cancelled fun _ => Causes.mono h
  | mainLoop =>
    obtain ⟨res, hres⟩ := hs
    exact ⟨res, h.returned res hres⟩
  | msgLoop =>
    rcases hs with ⟨res, hres⟩ | ⟨res, hres⟩
    · exact Or.inl ⟨res, h.handle .swarm res hres⟩
    · exact Or.inr ⟨res, h.handle .mainLoop res hres⟩
  | backend => exact Explained.mono hs h.cancelled fun _ => Causes.mono h
  | start => exact Explained.mono hs h.cancelled fun _ => Causes.mono h

/-- The receiver is dropped with the swarm's task only. -/
lemma swarm_of_sendFailed (h : streamerNode.system.Reachable s) :
    s.env.sendFailed → ∃ res, s.handle .swarm = some res := by
  refine h.invariant (P := fun s : StreamerGroup =>
    s.env.sendFailed → ∃ res, s.handle .swarm = some res) ?_ ?_
  · intro hfailed
    cases hfailed
  intro s a s' _ ih hs hfailed
  by_cases hold : s.env.sendFailed
  · obtain ⟨res, hres⟩ := ih hold
    exact ⟨res, Program.handle_of_step hs hres⟩
  cases Program.steps_of_step hs with
  | returns => exact absurd hfailed hold
  | panics => exact absurd hfailed hold
  | @env a env henv =>
    cases a with
    | sendFails =>
      obtain ⟨hswarm, henv⟩ := Option.ite_none_right_eq_some.mp henv
      exact Option.isSome_iff_exists.mp hswarm
    | cancel =>
      obtain rfl := Option.some.inj henv
      exact absurd hfailed hold
    | rpcStops =>
      obtain rfl := Option.some.inj henv
      exact absurd hfailed hold
    | mainLoop a =>
      obtain ⟨-, henv⟩ := Option.ite_none_right_eq_some.mp henv
      obtain ⟨mainLoop, -, rfl⟩ := Option.map_eq_some_iff.mp henv
      exact absurd hfailed hold

/-- One case per task and branch: what the branch returns follows from what made it ready. -/
lemma tells_of_ready (hr : streamerNode.system.Reachable s)
    (ih : ∀ t ret, s.handle t = some (.ok ret) → s.Tells t ret) (t : StreamerTask) :
    ∀ ret ∈ s.ready t, s.Tells t ret := by
  intro ret hret
  cases t with
  | swarm => exact (mem_readyIf.mp hret).1
  | serverListener => exact (mem_readyIf.mp hret).1
  | server =>
    rcases List.mem_append.mp hret with hret | hret
    · rcases List.mem_append.mp hret with hret | hret
      · obtain ⟨hstopped, rfl⟩ := mem_readyIf.mp hret
        exact explained_error (.exited hstopped)
      · obtain ⟨res, hres, rfl⟩ := mem_readyOn.mp hret
        refine explained_handleToMainHandle ?_ ?_ (fun e => e.elim)
        · rintro err rfl
          exact .panicked hres
        · rintro rfl
          exact ih .serverListener none hres
    · obtain ⟨hcancelled, rfl⟩ := mem_readyIf.mp hret
      exact explained_none hcancelled
  | mainLoop =>
    simp only [ready] at hret
    split at hret
    · next res hphase => exact ⟨res, hphase⟩
    · exact absurd hret List.not_mem_nil
  | msgLoop =>
    rcases List.mem_append.mp hret with hret | hret
    · exact Or.inl (swarm_of_sendFailed hr (mem_readyIf.mp hret).1)
    · obtain ⟨res, hres, -⟩ := mem_readyOn.mp hret
      exact Or.inr ⟨res, hres⟩
  | backend =>
    rcases List.mem_append.mp hret with hret | hret
    · obtain ⟨res, hres, rfl⟩ := mem_readyOn.mp hret
      exact explained_error (.msgLoop hres)
    · obtain ⟨res, hres, rfl⟩ := mem_readyOn.mp hret
      exact explained_error (.mainLoop hres)
  | start =>
    rcases List.mem_append.mp hret with hret | hret
    · rcases List.mem_append.mp hret with hret | hret
      · obtain ⟨res, hres, rfl⟩ := mem_readyOn.mp hret
        refine explained_handleToMainHandle ?_ ?_ (fun e => e.elim)
        · rintro err rfl
          exact .panicked hres
        · rintro rfl
          exact ih .swarm none hres
      · obtain ⟨res, hres, rfl⟩ := mem_readyOn.mp hret
        refine explained_handleToMainHandle ?_ ?_ ?_
        · rintro err rfl
          exact .panicked hres
        · rintro rfl
          exact (ih .server none hres).1 rfl
        · rintro err rfl
          exact (ih .server _ hres).2 err rfl
    · obtain ⟨res, hres, rfl⟩ := mem_readyOn.mp hret
      refine explained_handleToMainHandle ?_ ?_ ?_
      · rintro err rfl
        exact .panicked hres
      · rintro rfl
        exact (ih .backend none hres).1 rfl
      · rintro err rfl
        exact (ih .backend _ hres).2 err rfl

/-- Something has happened to the node: the token has fired, the RPC server has stopped, a task
has panicked, or the main loop is over. -/
def Disturbed (s : StreamerGroup) : Prop :=
  s.env.cancelled ∨ s.env.rpcStopped ∨ (∃ t err, s.handle t = some (.error err)) ∨
    ∃ res, s.env.mainLoop.phase = .returned res

lemma Disturbed.mono (h : s.Extends s') (hs : s.Disturbed) : s'.Disturbed := by
  rcases hs with hcancelled | hstopped | ⟨t, err, hpanic⟩ | ⟨res, hres⟩
  · exact Or.inl (h.cancelled hcancelled)
  · exact Or.inr (Or.inl (h.rpcStopped hstopped))
  · exact Or.inr (Or.inr (Or.inl ⟨t, err, h.handle t _ hpanic⟩))
  · exact Or.inr (Or.inr (Or.inr ⟨res, h.returned res hres⟩))

lemma tells_of_reachable (h : streamerNode.system.Reachable s) :
    ∀ t ret, s.handle t = some (.ok ret) → s.Tells t ret :=
  Program.returned_invariant
    (fun _ _ _ _ _ hstep => Tells.mono (extends_of_step hstep))
    (fun _ hr ih t => tells_of_ready hr ih t) h

/-- No task ends before something has happened. -/
lemma disturbed_of_handle (h : streamerNode.system.Reachable s) {t : StreamerTask}
    {res : Except JoinError t.Ret} (hres : s.handle t = some res) : s.Disturbed := by
  have htells := tells_of_reachable h
  have hmainLoop : ∀ res, s.handle .mainLoop = some res → s.Disturbed := by
    rintro (err | ret) hres
    · exact Or.inr (Or.inr (Or.inl ⟨.mainLoop, err, hres⟩))
    · exact Or.inr (Or.inr (Or.inr (htells .mainLoop ret hres)))
  have hswarm : ∀ res, s.handle .swarm = some res → s.Disturbed := by
    rintro (err | ret) hres
    · exact Or.inr (Or.inr (Or.inl ⟨.swarm, err, hres⟩))
    · exact Or.inl (htells .swarm ret hres)
  have hmsgLoop : ∀ res, s.handle .msgLoop = some res → s.Disturbed := by
    rintro (err | ret) hres
    · exact Or.inr (Or.inr (Or.inl ⟨.msgLoop, err, hres⟩))
    · rcases htells .msgLoop ret hres with ⟨res, hres⟩ | ⟨res, hres⟩
      · exact hswarm res hres
      · exact hmainLoop res hres
  have hexplained : ∀ ret, Explained s.env.cancelled s.Causes ret → s.Disturbed := by
    rintro (_ | err | e) hret
    · exact Or.inl (hret.1 rfl)
    · cases hret.2 err rfl with
      | panicked hpanic => exact Or.inr (Or.inr (Or.inl ⟨_, _, hpanic⟩))
      | exited hstopped => exact Or.inr (Or.inl hstopped)
      | msgLoop hres => exact hmsgLoop _ hres
      | mainLoop hres => exact hmainLoop _ hres
    · exact e.elim
  rcases res with err | ret
  · exact Or.inr (Or.inr (Or.inl ⟨t, err, hres⟩))
  cases t with
  | swarm => exact hswarm _ hres
  | serverListener => exact Or.inl (htells .serverListener ret hres)
  | server => exact hexplained ret (htells .server ret hres)
  | mainLoop => exact hmainLoop _ hres
  | msgLoop => exact hmsgLoop _ hres
  | backend => exact hexplained ret (htells .backend ret hres)
  | start => exact hexplained ret (htells .start ret hres)

end StreamerGroup

/-- **A streamer reports what has happened.**  In every run, whatever fails and in whatever
order: `Node::start` of a streamer returns `None` only after the token has fired, the panic of a
task only if a task has panicked with it, `TaskExited` only if the RPC server has stopped, the
end of one of the encoding loops only if that loop has ended, and nothing else.  And it returns
only after something has happened. -/
theorem streamer_reports_cause {s : StreamerGroup} (h : streamerNode.system.Reachable s)
    {ret : TaskRet AppError} (hret : s.handle .start = some (.ok ret)) :
    (ret = none → s.env.cancelled) ∧ (∀ err, ret = some (.error err) → s.Causes err) ∧
      s.Disturbed := by
  have hexplained := StreamerGroup.tells_of_reachable h .start ret hret
  exact ⟨hexplained.1, hexplained.2, StreamerGroup.disturbed_of_handle h hret⟩

/-- The swarm panics, the message loop cannot send any more, and the backend passes its end
on. -/
def streamerFails : Run streamerNode.system :=
  Run.ofActions [.panics .swarm { reason := "swarm" }, .env .sendFails, .returns .msgLoop 0,
    .returns .backend 0, .returns .start 1] rfl

theorem streamer_reports_cause_of_panic :
    StreamerGroup.Causes streamerFails.final
        (.anyhow (.msg "Message loop encoding terminated")) ∧
      StreamerGroup.Disturbed streamerFails.final :=
  have hret : streamerFails.final.handle .start =
    some (.ok (some (.error (.anyhow (.msg "Message loop encoding terminated"))))) := rfl
  have h := streamer_reports_cause streamerFails.visits_final.reachable hret
  ⟨h.2.1 _ rfl, h.2.2⟩

/-! ## A streamer ends -/

/-- What happens to a streamer without an event from outside, besides its tasks' returning. -/
def StreamerEnvAction.Internal : StreamerEnvAction → Prop
  | .mainLoop a => Stream.mainLoop.Advances a
  | _ => False

/-- A step that a streamer takes on its own. -/
abbrev StreamerGroup.Internal :
    TaskAction StreamerTask StreamerEnvAction JoinError → Prop :=
  Program.Internal StreamerEnvAction.Internal

/-- How many of these steps are left, at most. -/
def StreamerEnv.rank (env : StreamerEnv) : ℕ := env.mainLoop.phase.rank

namespace StreamerGroup

variable {s s' : StreamerGroup}

lemma lowers_streamerNode : streamerNode.system.Lowers Internal
    fun s => s.env.rank + Program.running s := by
  apply Program.lowers
  intro s a env ha henv
  cases a with
  | cancel | rpcStops | sendFails => exact ha.elim
  | mainLoop a =>
    obtain ⟨-, henv⟩ := Option.ite_none_right_eq_some.mp henv
    obtain ⟨mainLoop, hstep, rfl⟩ := Option.map_eq_some_iff.mp henv
    exact PipelineService.rank_lt_of_step hstep ha

lemma length_le_of_exec (hr : streamerNode.system.Reachable s)
    {as : List (TaskAction StreamerTask StreamerEnvAction JoinError)} (has : ∀ a ∈ as, Internal a)
    (hexec : streamerNode.system.exec s as = some s') : as.length ≤ 10 := by
  have hle := lowers_streamerNode.length_le hr has hexec
  have hrank : s.env.rank ≤ 3 := s.env.mainLoop.phase.rank_le
  have hrunning : Program.running s ≤ 7 := Program.running_le s
  omega

/-- Every level passes the end of the task it waits for on to `Node::start`. -/
lemma exists_start_of_handle (hq : streamerNode.system.Quiescent Internal s) {t : StreamerTask}
    {res : Except JoinError t.Ret} (hres : s.handle t = some res) :
    ∃ res, s.handle .start = some res := by
  have hserver : ∀ res, s.handle .server = some res → ∃ res, s.handle .start = some res :=
    fun res hres => Program.exists_handle_of_quiescent hq (t := .start)
      (List.mem_append_left _ (List.mem_append_right _ (mem_readyOn.mpr ⟨res, hres, rfl⟩)))
  have hbackend : ∀ res, s.handle .backend = some res → ∃ res, s.handle .start = some res :=
    fun res hres => Program.exists_handle_of_quiescent hq (t := .start)
      (List.mem_append_right _ (mem_readyOn.mpr ⟨res, hres, rfl⟩))
  cases t with
  | swarm =>
    exact Program.exists_handle_of_quiescent hq (t := .start)
      (List.mem_append_left _ (List.mem_append_left _ (mem_readyOn.mpr ⟨res, hres, rfl⟩)))
  | serverListener =>
    obtain ⟨res, hres⟩ := Program.exists_handle_of_quiescent hq (t := .server)
      (List.mem_append_left _ (List.mem_append_right _ (mem_readyOn.mpr ⟨res, hres, rfl⟩)))
    exact hserver res hres
  | server => exact hserver res hres
  | mainLoop =>
    obtain ⟨res, hres⟩ := Program.exists_handle_of_quiescent hq (t := .backend)
      (List.mem_append_right _ (mem_readyOn.mpr ⟨res, hres, rfl⟩))
    exact hbackend res hres
  | msgLoop =>
    obtain ⟨res, hres⟩ := Program.exists_handle_of_quiescent hq (t := .backend)
      (List.mem_append_left _ (mem_readyOn.mpr ⟨res, hres, rfl⟩))
    exact hbackend res hres
  | backend => exact hbackend res hres
  | start => exact ⟨res, hres⟩

lemma exists_mainLoop_of_returned (hq : streamerNode.system.Quiescent Internal s)
    {res : Except AnyhowError Unit} (hres : s.env.mainLoop.phase = .returned res) :
    ∃ res, s.handle .mainLoop = some res := by
  have hready : () ∈ s.ready .mainLoop := by
    simp only [ready, hres]
    exact List.mem_singleton_self ()
  exact Program.exists_handle_of_quiescent hq (t := .mainLoop) hready

lemma exists_start_of_disturbed (hr : streamerNode.system.Reachable s)
    (hq : streamerNode.system.Quiescent Internal s) (hd : s.Disturbed) :
    ∃ ret, s.handle .start = some (.ok ret) := by
  have hstart : ∃ res, s.handle .start = some res := by
    rcases hd with hcancelled | hstopped | ⟨t, err, hpanic⟩ | ⟨res, hres⟩
    · obtain ⟨res, hres⟩ := Program.exists_handle_of_quiescent hq (t := .swarm)
        (mem_readyIf.mpr ⟨hcancelled, rfl⟩)
      exact exists_start_of_handle hq hres
    · obtain ⟨res, hres⟩ := Program.exists_handle_of_quiescent hq (t := .server)
        (List.mem_append_left _ (List.mem_append_left _ (mem_readyIf.mpr ⟨hstopped, rfl⟩)))
      exact exists_start_of_handle hq hres
    · exact exists_start_of_handle hq hpanic
    · obtain ⟨res, hres⟩ := exists_mainLoop_of_returned hq hres
      exact exists_start_of_handle hq hres
  obtain ⟨err | ret, hres⟩ := hstart
  · exact absurd (Program.spawned_of_panicked hr hres) (by decide)
  · exact ⟨ret, hres⟩

/-- After the token no task is left. -/
lemma exists_handle_of_cancelled (hq : streamerNode.system.Quiescent Internal s)
    (hc : s.env.cancelled) (t : StreamerTask) : ∃ res, s.handle t = some res := by
  obtain ⟨swarm, hswarm⟩ := Program.exists_handle_of_quiescent hq (t := .swarm)
    (mem_readyIf.mpr ⟨hc, rfl⟩)
  have hmainLoop : ∃ res, s.handle .mainLoop = some res := by
    by_contra hrunning
    have hnone : s.handle .mainLoop = none := by
      by_contra hne
      exact hrunning (Option.ne_none_iff_exists'.mp hne)
    -- The main loop has a step of its own left, or has returned.
    by_cases hreturned : ∃ res, s.env.mainLoop.phase = .returned res
    · obtain ⟨res, hres⟩ := hreturned
      exact hrunning (exists_mainLoop_of_returned hq hres)
    · obtain ⟨a, mainLoop, ha, hstep⟩ := PipelineService.exists_step_of_cancelled
        Stream.mainLoop hc (b := .cancelled) ⟨rfl, rfl⟩ (not_exists.mp hreturned)
      have hstuck : s.envStep (.mainLoop a) = none :=
        Program.envStep_eq_none_of_quiescent hq (a := .mainLoop a) ha
      simp [envStep, hnone, hstep] at hstuck
  cases t with
  | swarm => exact ⟨swarm, hswarm⟩
  | serverListener =>
    exact Program.exists_handle_of_quiescent hq (mem_readyIf.mpr ⟨hc, rfl⟩)
  | server =>
    exact Program.exists_handle_of_quiescent hq
      (List.mem_append_right _ (mem_readyIf.mpr ⟨hc, rfl⟩))
  | mainLoop => exact hmainLoop
  | msgLoop =>
    obtain ⟨res, hres⟩ := hmainLoop
    exact Program.exists_handle_of_quiescent hq
      (List.mem_append_right _ (mem_readyOn.mpr ⟨res, hres, rfl⟩))
  | backend =>
    obtain ⟨res, hres⟩ := hmainLoop
    exact Program.exists_handle_of_quiescent hq
      (List.mem_append_right _ (mem_readyOn.mpr ⟨res, hres, rfl⟩))
  | start => exact exists_start_of_handle hq hswarm

end StreamerGroup

/-- **A streamer ends.**  Once anything has happened to a streamer, the steps it takes on its
own are at most ten, in whatever order, and when none is left `Node::start` has returned.  If
the token has fired, every other task has ended by then too. -/
theorem streamer_ends {s s' : StreamerGroup} (hr : streamerNode.system.Reachable s)
    (hd : s.Disturbed) {as : List (TaskAction StreamerTask StreamerEnvAction JoinError)}
    (has : ∀ a ∈ as, StreamerGroup.Internal a)
    (hexec : streamerNode.system.exec s as = some s') :
    as.length ≤ 10 ∧
      (streamerNode.system.Quiescent StreamerGroup.Internal s' →
        (∃ ret, s'.handle .start = some (.ok ret)) ∧
        (s.env.cancelled → ∀ t, ∃ res, s'.handle t = some res)) := by
  have hextends := StreamerGroup.extends_of_exec hexec
  constructor
  · exact StreamerGroup.length_le_of_exec hr has hexec
  · intro hq
    refine ⟨StreamerGroup.exists_start_of_disturbed (hr.exec hexec) hq (hd.mono hextends), ?_⟩
    intro hc t
    exact StreamerGroup.exists_handle_of_cancelled hq (hextends.cancelled hc) t

/-- The token fires while the main loop waits for the bus. -/
def streamerCancelled : Run streamerNode.system :=
  Run.ofActions [.env (.mainLoop (.setPlaying true)), .env .cancel] rfl

/-- What it does then, in one of many orders. -/
def streamerStops : List (TaskAction StreamerTask StreamerEnvAction JoinError) :=
  [.returns .swarm 0, .env (.mainLoop (.branch .cancelled)), .returns .start 0,
    .env (.mainLoop (.setNull true)), .returns .mainLoop 0, .returns .msgLoop 0,
    .returns .backend 1, .returns .serverListener 0, .returns .server 1]

theorem streamer_ends_of_cancel :
    ∃ s', streamerNode.system.exec streamerCancelled.final streamerStops = some s' ∧
      (streamerNode.system.Quiescent StreamerGroup.Internal s' →
        ∀ t, ∃ res, s'.handle t = some res) := by
  have hexec : (streamerNode.system.exec streamerCancelled.final streamerStops).isSome := rfl
  obtain ⟨s', hs'⟩ := Option.isSome_iff_exists.mp hexec
  refine ⟨s', hs', fun hq => ?_⟩
  have hinternal : ∀ a ∈ streamerStops, StreamerGroup.Internal a := by
    simp [streamerStops, StreamerGroup.Internal, Program.Internal, StreamerEnvAction.Internal,
      PipelineService.Advances, Stream.mainLoop, MainLoopBranch.waitsForToken,
      MainLoopBranch.breaks]
  have h := streamer_ends streamerCancelled.visits_final.reachable (Or.inl rfl) hinternal hs'
  exact (h.2 hq).2 rfl

/-! ## What a listener reports -/

namespace ListenerGroup

variable {s s' : ListenerGroup} {a : TaskAction ListenerTask ListenerEnvAction JoinError}

/-- What each error of a listener names.  The task that waits for the RPC server is not asked
how it ended. -/
inductive Causes (s : ListenerGroup) : AppError → Prop
  | panicked {t : ListenerTask} {err : JoinError} : s.handle t = some (.error err) →
      s.Causes (.taskPanicked err)
  | exited {res : Except JoinError Unit} : s.handle .serverHandle = some res →
      s.Causes .taskExited
  | decoder {err : AnyhowError} : s.env.decoder.phase = .returned (some (.error err)) →
      err = .stateChange ∨ err = .msg "Pipeline finished unexpectedly" → s.Causes (.anyhow err)

/-- What a task that has returned tells of the others. -/
def Tells (s : ListenerGroup) : (t : ListenerTask) → t.Ret → Prop
  | .swarm, _ => s.env.cancelled
  | .backend, ret => s.env.decoder.phase = .returned ret
  | .axumServer, _ => s.env.cancelled
  | .gossipBackendBridge, _ => s.env.cancelled
  | .serverHandle, _ => s.env.rpcStopped
  | .server, ret => Explained s.env.cancelled s.Causes ret
  | .start, ret => Explained s.env.cancelled s.Causes ret

/-- What stays: the token, the RPC server's end, the decoder's end and every handle. -/
structure Extends (s s' : ListenerGroup) : Prop where
  cancelled : s.env.cancelled → s'.env.cancelled
  rpcStopped : s.env.rpcStopped → s'.env.rpcStopped
  returned : ∀ ret, s.env.decoder.phase = .returned ret → s'.env.decoder.phase = .returned ret
  handle : ∀ t res, s.handle t = some res → s'.handle t = some res

lemma Extends.refl (s : ListenerGroup) : s.Extends s :=
  ⟨id, id, fun _ h => h, fun _ _ h => h⟩

lemma Extends.trans {t : ListenerGroup} (h : s.Extends s') (h' : s'.Extends t) : s.Extends t :=
  ⟨h'.cancelled ∘ h.cancelled, h'.rpcStopped ∘ h.rpcStopped,
    fun ret hret => h'.returned ret (h.returned ret hret),
    fun t res hres => h'.handle t res (h.handle t res hres)⟩

lemma extends_of_step (hs : listenerNode.step s a = some s') : s.Extends s' := by
  have hhandle : ∀ t res, s.handle t = some res → s'.handle t = some res :=
    fun t res h => Program.handle_of_step hs h
  cases Program.steps_of_step hs with
  | @env a env henv =>
    cases a with
    | cancel =>
      obtain rfl := Option.some.inj henv
      exact ⟨fun _ => rfl, id, fun _ h => h, hhandle⟩
    | rpcStops =>
      obtain rfl := Option.some.inj henv
      exact ⟨id, fun _ => rfl, fun _ h => h, hhandle⟩
    | decoder a =>
      obtain ⟨-, henv⟩ := Option.ite_none_right_eq_some.mp henv
      obtain ⟨decoder, hstep, rfl⟩ := Option.map_eq_some_iff.mp henv
      exact ⟨PipelineService.cancelled_of_step hstep, id,
        fun _ => PipelineService.phase_of_step_of_returned hstep, hhandle⟩
    | sends | sent | sendFails =>
      obtain ⟨-, henv⟩ := Option.ite_none_right_eq_some.mp henv
      obtain rfl := Option.some.inj henv
      exact ⟨id, id, fun _ h => h, hhandle⟩
  | returns => exact ⟨id, id, fun _ h => h, hhandle⟩
  | panics => exact ⟨id, id, fun _ h => h, hhandle⟩

lemma extends_of_exec {as : List (TaskAction ListenerTask ListenerEnvAction JoinError)}
    (hexec : listenerNode.system.exec s as = some s') : s.Extends s' :=
  System.exec_invariant (P := fun t : ListenerGroup => s.Extends t) (.refl s)
    (fun _ _ _ _ ht hstep => ht.trans (extends_of_step hstep)) hexec

/-- Whatever else happens to the node, its decoder runs as `DecodingBackend::run` does alone. -/
lemma simulates_decoder :
    Simulates listenerNode.system DecodingBackend.run.system fun s => s.env.decoder where
  init := rfl
  step s a s' hs := by
    cases Program.steps_of_step hs with
    | @env a env henv =>
      cases a with
      | cancel =>
        obtain rfl := Option.some.inj henv
        exact Or.inr ⟨.cancel, rfl⟩
      | decoder a =>
        obtain ⟨-, henv⟩ := Option.ite_none_right_eq_some.mp henv
        obtain ⟨decoder, hstep, rfl⟩ := Option.map_eq_some_iff.mp henv
        exact Or.inr ⟨a, hstep⟩
      | rpcStops =>
        obtain rfl := Option.some.inj henv
        exact Or.inl rfl
      | sends | sent | sendFails =>
        obtain ⟨-, henv⟩ := Option.ite_none_right_eq_some.mp henv
        obtain rfl := Option.some.inj henv
        exact Or.inl rfl
    | returns => exact Or.inl rfl
    | panics => exact Or.inl rfl

lemma Causes.mono (h : s.Extends s') {err : AppError} (hs : s.Causes err) : s'.Causes err := by
  cases hs with
  | panicked hpanic => exact .panicked (h.handle _ _ hpanic)
  | exited hres => exact .exited (h.handle .serverHandle _ hres)
  | decoder hphase herr => exact .decoder (h.returned _ hphase) herr

lemma Tells.mono (h : s.Extends s') {t : ListenerTask} {ret : t.Ret} (hs : s.Tells t ret) :
    s'.Tells t ret := by
  cases t with
  | swarm => exact h.cancelled hs
  | backend => exact h.returned ret hs
  | axumServer => exact h.cancelled hs
  | gossipBackendBridge => exact h.cancelled hs
  | serverHandle => exact h.rpcStopped hs
  | server => exact Explained.mono hs h.cancelled fun _ => Causes.mono h
  | start => exact Explained.mono hs h.cancelled fun _ => Causes.mono h

/-- One case per task and branch: what the branch returns follows from what made it ready. -/
lemma tells_of_ready (hr : listenerNode.system.Reachable s)
    (ih : ∀ t ret, s.handle t = some (.ok ret) → s.Tells t ret) (t : ListenerTask) :
    ∀ ret ∈ s.ready t, s.Tells t ret := by
  intro ret hret
  cases t with
  | swarm =>
    have hready := (mem_readyIf.mp hret).1
    exact (Bool.and_eq_true_iff.mp hready).1
  | backend =>
    simp only [ready] at hret
    split at hret
    · next ret' hphase =>
      obtain rfl := List.mem_singleton.mp hret
      exact hphase
    · exact absurd hret List.not_mem_nil
  | axumServer => exact (mem_readyIf.mp hret).1
  | gossipBackendBridge => exact (mem_readyIf.mp hret).1
  | serverHandle => exact (mem_readyIf.mp hret).1
  | server =>
    rcases List.mem_append.mp hret with hret | hret
    · rcases List.mem_append.mp hret with hret | hret
      · rcases List.mem_append.mp hret with hret | hret
        · obtain ⟨res, hres, rfl⟩ := mem_readyOn.mp hret
          -- The decoder's own results are known.
          have hcases : ∀ ret, res = .ok ret → s.env.decoder.phase = .returned ret ∧
              ((ret = none ∧ s.env.cancelled) ∨ ret = some (.error .stateChange) ∨
                ret = some (.error (.msg "Pipeline finished unexpectedly"))) := by
            rintro ret rfl
            have hphase : s.env.decoder.phase = .returned ret := ih .backend ret hres
            exact ⟨hphase,
              DecodingBackend.returned_cases (simulates_decoder.reachable hr) hphase⟩
          refine explained_handleToMainHandle ?_ ?_ ?_
          · rintro err rfl
            exact .panicked hres
          · intro hnone
            rcases (hcases none hnone).2 with ⟨-, hcancelled⟩ | herr | herr
            · exact hcancelled
            · cases herr
            · cases herr
          · intro err herr
            obtain ⟨hphase, ⟨hnone, -⟩ | hstate | hmsg⟩ := hcases _ herr
            · cases hnone
            · exact .decoder hphase (Or.inl (Except.error.inj (Option.some.inj hstate)))
            · exact .decoder hphase (Or.inr (Except.error.inj (Option.some.inj hmsg)))
        · obtain ⟨res, hres, rfl⟩ := mem_readyOn.mp hret
          refine explained_handleToMainHandle ?_ ?_ (fun e => e.elim)
          · rintro err rfl
            exact .panicked hres
          · rintro rfl
            exact ih .axumServer none hres
      · obtain ⟨res, hres, rfl⟩ := mem_readyOn.mp hret
        refine explained_handleToMainHandle ?_ ?_ (fun e => e.elim)
        · rintro err rfl
          exact .panicked hres
        · rintro rfl
          exact ih .gossipBackendBridge none hres
    · obtain ⟨res, hres, rfl⟩ := mem_readyOn.mp hret
      exact explained_error (.exited hres)
  | start =>
    rcases List.mem_append.mp hret with hret | hret
    · obtain ⟨res, hres, rfl⟩ := mem_readyOn.mp hret
      refine explained_handleToMainHandle ?_ ?_ (fun e => e.elim)
      · rintro err rfl
        exact .panicked hres
      · rintro rfl
        exact ih .swarm none hres
    · obtain ⟨res, hres, rfl⟩ := mem_readyOn.mp hret
      refine explained_handleToMainHandle ?_ ?_ ?_
      · rintro err rfl
        exact .panicked hres
      · rintro rfl
        exact (ih .server none hres).1 rfl
      · rintro err rfl
        exact (ih .server _ hres).2 err rfl

lemma tells_of_reachable (h : listenerNode.system.Reachable s) :
    ∀ t ret, s.handle t = some (.ok ret) → s.Tells t ret :=
  Program.returned_invariant
    (fun _ _ _ _ _ hstep => Tells.mono (extends_of_step hstep))
    (fun _ hr ih t => tells_of_ready hr ih t) h

/-- Something has happened to the node: the token has fired, the RPC server has stopped, a task
has panicked, or the decoder is over. -/
def Disturbed (s : ListenerGroup) : Prop :=
  s.env.cancelled ∨ s.env.rpcStopped ∨ (∃ t err, s.handle t = some (.error err)) ∨
    ∃ ret, s.env.decoder.phase = .returned ret

lemma Disturbed.mono (h : s.Extends s') (hs : s.Disturbed) : s'.Disturbed := by
  rcases hs with hcancelled | hstopped | ⟨t, err, hpanic⟩ | ⟨ret, hret⟩
  · exact Or.inl (h.cancelled hcancelled)
  · exact Or.inr (Or.inl (h.rpcStopped hstopped))
  · exact Or.inr (Or.inr (Or.inl ⟨t, err, h.handle t _ hpanic⟩))
  · exact Or.inr (Or.inr (Or.inr ⟨ret, h.returned ret hret⟩))

/-- No task ends before something has happened. -/
lemma disturbed_of_handle (h : listenerNode.system.Reachable s) {t : ListenerTask}
    {res : Except JoinError t.Ret} (hres : s.handle t = some res) : s.Disturbed := by
  have htells := tells_of_reachable h
  have hserverHandle : ∀ res, s.handle .serverHandle = some res → s.Disturbed := by
    rintro (err | ret) hres
    · exact Or.inr (Or.inr (Or.inl ⟨.serverHandle, err, hres⟩))
    · exact Or.inr (Or.inl (htells .serverHandle ret hres))
  have hexplained : ∀ ret, Explained s.env.cancelled s.Causes ret → s.Disturbed := by
    rintro (_ | err | e) hret
    · exact Or.inl (hret.1 rfl)
    · cases hret.2 err rfl with
      | panicked hpanic => exact Or.inr (Or.inr (Or.inl ⟨_, _, hpanic⟩))
      | exited hres => exact hserverHandle _ hres
      | decoder hphase => exact Or.inr (Or.inr (Or.inr ⟨_, hphase⟩))
    · exact e.elim
  rcases res with err | ret
  · exact Or.inr (Or.inr (Or.inl ⟨t, err, hres⟩))
  cases t with
  | swarm => exact Or.inl (htells .swarm ret hres)
  | backend => exact Or.inr (Or.inr (Or.inr ⟨ret, htells .backend ret hres⟩))
  | axumServer => exact Or.inl (htells .axumServer ret hres)
  | gossipBackendBridge => exact Or.inl (htells .gossipBackendBridge ret hres)
  | serverHandle => exact hserverHandle _ hres
  | server => exact hexplained ret (htells .server ret hres)
  | start => exact hexplained ret (htells .start ret hres)

end ListenerGroup

/-- **A listener reports what has happened.**  In every run, whatever fails and in whatever
order: `Node::start` of a listener returns `None` only after the token has fired, the panic of a
task only if a task has panicked with it, `TaskExited` only if the task that waits for the RPC
server has ended, and otherwise what the decoder has returned, which is a refused change of
state or the end of its loop: nothing that the bus reports reaches it.  And it returns only
after something has happened. -/
theorem listener_reports_cause {s : ListenerGroup} (h : listenerNode.system.Reachable s)
    {ret : TaskRet AppError} (hret : s.handle .start = some (.ok ret)) :
    (ret = none → s.env.cancelled) ∧ (∀ err, ret = some (.error err) → s.Causes err) ∧
      s.Disturbed := by
  have hexplained := ListenerGroup.tells_of_reachable h .start ret hret
  exact ⟨hexplained.1, hexplained.2, ListenerGroup.disturbed_of_handle h hret⟩

/-- The bus reports an error while the swarm is stuck at a full queue. -/
def listenerFails : Run listenerNode.system :=
  Run.ofActions [.env (.decoder (.setPlaying true)), .env .sends,
    .env (.decoder (.branch (.message (.error ⟨"rtpjitterbuffer", "failed", none⟩)))),
    .env (.decoder (.setNull true)), .returns .backend 0, .returns .server 0,
    .returns .start 0] rfl

theorem listener_reports_cause_of_bus_error :
    ListenerGroup.Causes listenerFails.final
        (.anyhow (.msg "Pipeline finished unexpectedly")) ∧
      ListenerGroup.Disturbed listenerFails.final :=
  have hret : listenerFails.final.handle .start =
    some (.ok (some (.error (.anyhow (.msg "Pipeline finished unexpectedly"))))) := rfl
  have h := listener_reports_cause listenerFails.visits_final.reachable hret
  ⟨h.2.1 _ rfl, h.2.2⟩

/-! ## A listener ends -/

/-- What happens to a listener without an event from outside, besides its tasks' returning. -/
def ListenerEnvAction.Internal : ListenerEnvAction → Prop
  | .decoder a => DecodingBackend.run.Advances a
  | .sendFails => True
  | _ => False

/-- A step that a listener takes on its own. -/
abbrev ListenerGroup.Internal :
    TaskAction ListenerTask ListenerEnvAction JoinError → Prop :=
  Program.Internal ListenerEnvAction.Internal

/-- How many of these steps are left, at most. -/
def ListenerEnv.rank (env : ListenerEnv) : ℕ := env.decoder.phase.rank + env.sending.toNat

lemma ListenerEnv.rank_le (env : ListenerEnv) : env.rank ≤ 4 :=
  Nat.add_le_add env.decoder.phase.rank_le (Bool.toNat_le _)

namespace ListenerGroup

variable {s s' : ListenerGroup}

lemma lowers_listenerNode : listenerNode.system.Lowers Internal
    fun s => s.env.rank + Program.running s := by
  apply Program.lowers
  intro s a env ha henv
  cases a with
  | decoder a =>
    obtain ⟨-, henv⟩ := Option.ite_none_right_eq_some.mp henv
    obtain ⟨decoder, hstep, rfl⟩ := Option.map_eq_some_iff.mp henv
    exact Nat.add_lt_add_right (PipelineService.rank_lt_of_step hstep ha) _
  | sendFails =>
    obtain ⟨⟨-, hsending⟩, henv⟩ := Option.ite_none_right_eq_some.mp henv
    obtain rfl := Option.some.inj henv
    show s.env.decoder.phase.rank + 0 < s.env.decoder.phase.rank + s.env.sending.toNat
    rw [hsending]
    exact Nat.lt_succ_self _
  | cancel | rpcStops | sends | sent => exact ha.elim

lemma length_le_of_exec (hr : listenerNode.system.Reachable s)
    {as : List (TaskAction ListenerTask ListenerEnvAction JoinError)} (has : ∀ a ∈ as, Internal a)
    (hexec : listenerNode.system.exec s as = some s') : as.length ≤ 11 := by
  have hle := lowers_listenerNode.length_le hr has hexec
  have hrank := s.env.rank_le
  have hrunning : Program.running s ≤ 7 := Program.running_le s
  omega

/-- Every level passes the end of the task it waits for on to `Node::start`. -/
lemma exists_start_of_handle (hq : listenerNode.system.Quiescent Internal s) {t : ListenerTask}
    {res : Except JoinError t.Ret} (hres : s.handle t = some res) :
    ∃ res, s.handle .start = some res := by
  have hserver : ∀ {ret}, ret ∈ s.ready .server → ∃ res, s.handle .start = some res := by
    intro ret hret
    obtain ⟨res, hres⟩ := Program.exists_handle_of_quiescent hq (t := .server) hret
    exact Program.exists_handle_of_quiescent hq (t := .start)
      (List.mem_append_right _ (mem_readyOn.mpr ⟨res, hres, rfl⟩))
  cases t with
  | swarm =>
    exact Program.exists_handle_of_quiescent hq (t := .start)
      (List.mem_append_left _ (mem_readyOn.mpr ⟨res, hres, rfl⟩))
  | backend =>
    exact hserver (List.mem_append_left _ (List.mem_append_left _ (List.mem_append_left _
      (mem_readyOn.mpr ⟨res, hres, rfl⟩))))
  | axumServer =>
    exact hserver (List.mem_append_left _ (List.mem_append_left _ (List.mem_append_right _
      (mem_readyOn.mpr ⟨res, hres, rfl⟩))))
  | gossipBackendBridge =>
    exact hserver (List.mem_append_left _ (List.mem_append_right _
      (mem_readyOn.mpr ⟨res, hres, rfl⟩)))
  | serverHandle =>
    exact hserver (List.mem_append_right _ (mem_readyOn.mpr ⟨res, hres, rfl⟩))
  | server =>
    exact Program.exists_handle_of_quiescent hq (t := .start)
      (List.mem_append_right _ (mem_readyOn.mpr ⟨res, hres, rfl⟩))
  | start => exact ⟨res, hres⟩

lemma exists_backend_of_returned (hq : listenerNode.system.Quiescent Internal s)
    {ret : TaskRet AnyhowError} (hret : s.env.decoder.phase = .returned ret) :
    ∃ res, s.handle .backend = some res := by
  have hready : ret ∈ s.ready .backend := by
    simp only [ready, hret]
    exact List.mem_singleton_self ret
  exact Program.exists_handle_of_quiescent hq (t := .backend) hready

lemma exists_start_of_disturbed (hr : listenerNode.system.Reachable s)
    (hq : listenerNode.system.Quiescent Internal s) (hd : s.Disturbed) :
    ∃ ret, s.handle .start = some (.ok ret) := by
  have hstart : ∃ res, s.handle .start = some res := by
    rcases hd with hcancelled | hstopped | ⟨t, err, hpanic⟩ | ⟨ret, hret⟩
    -- The HTTP server sees the token even if the swarm does not.
    · obtain ⟨res, hres⟩ := Program.exists_handle_of_quiescent hq (t := .axumServer)
        (mem_readyIf.mpr ⟨hcancelled, rfl⟩)
      exact exists_start_of_handle hq hres
    · obtain ⟨res, hres⟩ := Program.exists_handle_of_quiescent hq (t := .serverHandle)
        (mem_readyIf.mpr ⟨hstopped, rfl⟩)
      exact exists_start_of_handle hq hres
    · exact exists_start_of_handle hq hpanic
    · obtain ⟨res, hres⟩ := exists_backend_of_returned hq hret
      exact exists_start_of_handle hq hres
  obtain ⟨err | ret, hres⟩ := hstart
  · exact absurd (Program.spawned_of_panicked hr hres) (by decide)
  · exact ⟨ret, hres⟩

/-- After the token no task is left but the one that waits for the RPC server. -/
lemma exists_handle_of_cancelled (hq : listenerNode.system.Quiescent Internal s)
    (hc : s.env.cancelled) {t : ListenerTask} (ht : t ≠ .serverHandle) :
    ∃ res, s.handle t = some res := by
  obtain ⟨bridge, hbridge⟩ := Program.exists_handle_of_quiescent hq (t := .gossipBackendBridge)
    (mem_readyIf.mpr ⟨hc, rfl⟩)
  have hserver : ∃ res, s.handle .server = some res :=
    Program.exists_handle_of_quiescent hq (t := .server)
      (List.mem_append_left _ (List.mem_append_right _
        (mem_readyOn.mpr ⟨bridge, hbridge, rfl⟩)))
  cases t with
  | swarm =>
    -- With the receiver gone, no send is pending.
    have hsending : s.env.sending = false := by
      by_contra hsending
      have hstuck : s.envStep .sendFails = none :=
        Program.envStep_eq_none_of_quiescent hq (a := .sendFails) trivial
      simp [envStep, hbridge, hsending] at hstuck
    refine Program.exists_handle_of_quiescent hq (mem_readyIf.mpr ⟨?_, rfl⟩)
    rw [hc, hsending]
    rfl
  | backend =>
    by_contra hrunning
    have hnone : s.handle .backend = none := by
      by_contra hne
      exact hrunning (Option.ne_none_iff_exists'.mp hne)
    by_cases hreturned : ∃ ret, s.env.decoder.phase = .returned ret
    · obtain ⟨ret, hret⟩ := hreturned
      exact hrunning (exists_backend_of_returned hq hret)
    · obtain ⟨a, decoder, ha, hstep⟩ := PipelineService.exists_step_of_cancelled
        DecodingBackend.run hc (b := .cancelled) ⟨rfl, rfl⟩ (not_exists.mp hreturned)
      have hstuck : s.envStep (.decoder a) = none :=
        Program.envStep_eq_none_of_quiescent hq (a := .decoder a) ha
      simp [envStep, hnone, hstep] at hstuck
  | axumServer => exact Program.exists_handle_of_quiescent hq (mem_readyIf.mpr ⟨hc, rfl⟩)
  | gossipBackendBridge => exact ⟨bridge, hbridge⟩
  | serverHandle => exact absurd rfl ht
  | server => exact hserver
  | start => exact exists_start_of_handle hq hbridge

end ListenerGroup

/-- **A listener ends.**  Once anything has happened to a listener, the steps it takes on its
own are at most eleven, in whatever order, and when none is left `Node::start` has returned,
even while its swarm is stuck at a full queue.  If the token has fired, every other task has
ended by then too, but for the one that waits for the RPC server: nothing stops that server. -/
theorem listener_ends {s s' : ListenerGroup} (hr : listenerNode.system.Reachable s)
    (hd : s.Disturbed) {as : List (TaskAction ListenerTask ListenerEnvAction JoinError)}
    (has : ∀ a ∈ as, ListenerGroup.Internal a)
    (hexec : listenerNode.system.exec s as = some s') :
    as.length ≤ 11 ∧
      (listenerNode.system.Quiescent ListenerGroup.Internal s' →
        (∃ ret, s'.handle .start = some (.ok ret)) ∧
        (s.env.cancelled → ∀ t, t ≠ .serverHandle → ∃ res, s'.handle t = some res)) := by
  have hextends := ListenerGroup.extends_of_exec hexec
  constructor
  · exact ListenerGroup.length_le_of_exec hr has hexec
  · intro hq
    refine ⟨ListenerGroup.exists_start_of_disturbed (hr.exec hexec) hq (hd.mono hextends), ?_⟩
    intro hc t ht
    exact ListenerGroup.exists_handle_of_cancelled hq (hextends.cancelled hc) ht

/-- The token fires while the swarm is stuck at a full queue. -/
def listenerCancelled : Run listenerNode.system :=
  Run.ofActions [.env (.decoder (.setPlaying true)), .env .sends, .env .cancel] rfl

/-- What it does then, in one of many orders. -/
def listenerStops : List (TaskAction ListenerTask ListenerEnvAction JoinError) :=
  [.returns .axumServer 0, .returns .gossipBackendBridge 0, .returns .server 0,
    .returns .start 0, .env .sendFails, .returns .swarm 0,
    .env (.decoder (.branch .cancelled)), .env (.decoder (.setNull true)), .returns .backend 0]

theorem listener_ends_of_cancel :
    ∃ s', listenerNode.system.exec listenerCancelled.final listenerStops = some s' ∧
      (listenerNode.system.Quiescent ListenerGroup.Internal s' →
        ∃ res, s'.handle .swarm = some res) := by
  have hexec : (listenerNode.system.exec listenerCancelled.final listenerStops).isSome := rfl
  obtain ⟨s', hs'⟩ := Option.isSome_iff_exists.mp hexec
  refine ⟨s', hs', fun hq => ?_⟩
  have hinternal : ∀ a ∈ listenerStops, ListenerGroup.Internal a := by
    simp [listenerStops, ListenerGroup.Internal, Program.Internal, ListenerEnvAction.Internal,
      PipelineService.Advances, DecodingBackend.run, OggDec.Branch.waitsForToken, OggDec.runLoop,
      loopBreaks]
  have h := listener_ends listenerCancelled.visits_final.reachable (Or.inl rfl) hinternal hs'
  exact (h.2 hq).2 rfl .swarm nofun

end P2PRadio
