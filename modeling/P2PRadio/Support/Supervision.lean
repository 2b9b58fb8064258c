import Mathlib.Data.Fintype.Card
import P2PRadio.Support.Progress

/-!
# Groups of tasks

A group of concurrent tasks in an environment.  A task runs until it returns the result of one
of its branches that are ready, or panics; what the others see of it is its handle, which is
ready from then on.  Which branches are ready may depend on the environment and on the handles
of the other tasks, so that one task can wait for the first of several others to end.

* `Program.returned_invariant` is the induction rule for what the tasks return: what each ready
  branch would return satisfies a property, given that everything returned so far does.
* `Program.restrict` leaves out the runs with panics and those in which the environment does what
  is not allowed, and `Program.reachable_of_restrict` carries what is known of all runs over.
* `Program.lowers` and `Program.exists_handle_of_quiescent` are the two halves of a liveness
  argument: the tasks can end only as often as there are tasks, and where none can end any
  more, a task with a ready branch has ended.
-/

namespace Supervision

open Transition

/-- The environment, and the handle of each task: `none` while the task runs, then what it
returned or how it panicked. -/
@[ext]
structure TaskGroup {ι : Type*} (ρ : ι → Type*) (ε π : Type*) where
  env : ε
  handle : (t : ι) → Option (Except π (ρ t))

inductive TaskAction (ι α π : Type*) where
  | env (a : α)
  /-- The task returns what the branch at this place among the ready ones says. -/
  | returns (t : ι) (branch : ℕ)
  | panics (t : ι) (panic : π)

/-- What the tasks of a group do. -/
structure Program {ι : Type*} (ρ : ι → Type*) (ε α π : Type*) where
  initial : ε
  envStep : TaskGroup ρ ε π → α → Option ε
  /-- The results of the task's branches that are ready. -/
  ready : TaskGroup ρ ε π → (t : ι) → List (ρ t)
  /-- A panic ends this task only. -/
  spawned : ι → Bool

section

variable {ι : Type*} [DecidableEq ι] {ρ : ι → Type*} {ε α π : Type*}

/-- The task ends. -/
def TaskGroup.finish (s : TaskGroup ρ ε π) (t : ι) (res : Except π (ρ t)) : TaskGroup ρ ε π :=
  { s with handle := Function.update s.handle t (some res) }

@[simp] lemma TaskGroup.handle_finish_self (s : TaskGroup ρ ε π) (t : ι) (res : Except π (ρ t)) :
    (s.finish t res).handle t = some res := Function.update_self _ _ _

lemma TaskGroup.handle_finish_of_ne {t u : ι} (h : u ≠ t) (s : TaskGroup ρ ε π)
    (res : Except π (ρ t)) : (s.finish t res).handle u = s.handle u := Function.update_of_ne h _ _

namespace Program

variable (P : Program ρ ε α π)

def step (s : TaskGroup ρ ε π) : TaskAction ι α π → Option (TaskGroup ρ ε π)
  | .env a => (P.envStep s a).map fun env => { s with env }
  | .returns t branch =>
    if (s.handle t).isNone then (P.ready s t)[branch]?.map fun ret => s.finish t (.ok ret)
    else none
  | .panics t panic =>
    if (s.handle t).isNone ∧ P.spawned t then some (s.finish t (.error panic)) else none

/-- The group from the moment its tasks are started. -/
def system : System (TaskGroup ρ ε π) (TaskAction ι α π) where
  init := { env := P.initial, handle := fun _ => none }
  step := P.step

/-- Every step a group can take, with its guards and its outcome. -/
inductive Steps (P : Program ρ ε α π) (s : TaskGroup ρ ε π) :
    TaskAction ι α π → TaskGroup ρ ε π → Prop
  | env {a : α} {env : ε} : P.envStep s a = some env → P.Steps s (.env a) { s with env }
  | returns {t : ι} {branch : ℕ} {ret : ρ t} : s.handle t = none →
      (P.ready s t)[branch]? = some ret → P.Steps s (.returns t branch) (s.finish t (.ok ret))
  | panics {t : ι} {panic : π} : s.handle t = none → P.spawned t →
      P.Steps s (.panics t panic) (s.finish t (.error panic))

variable {P} {s s' : TaskGroup ρ ε π} {a : TaskAction ι α π}

/-- **Step inversion.**  An enabled action is one of the steps listed. -/
lemma steps_of_step (hs : P.step s a = some s') : P.Steps s a s' := by
  cases a with
  | env a =>
    obtain ⟨env, henv, rfl⟩ := Option.map_eq_some_iff.mp hs
    exact .env henv
  | returns t branch =>
    obtain ⟨hrunning, hs⟩ := Option.ite_none_right_eq_some.mp hs
    obtain ⟨ret, hret, rfl⟩ := Option.map_eq_some_iff.mp hs
    exact .returns (Option.isNone_iff_eq_none.mp hrunning) hret
  | panics t panic =>
    obtain ⟨⟨hrunning, hspawned⟩, hs⟩ := Option.ite_none_right_eq_some.mp hs
    obtain rfl := Option.some.inj hs
    exact .panics (Option.isNone_iff_eq_none.mp hrunning) hspawned

/-- A handle that is ready stays as it is. -/
lemma handle_of_step (hs : P.step s a = some s') {t : ι} {res : Except π (ρ t)}
    (h : s.handle t = some res) : s'.handle t = some res := by
  -- A task that ends was running, so it is not `t`.
  have hne : ∀ {u : ι}, s.handle u = none → t ≠ u := by
    rintro u hu rfl
    rw [hu] at h
    exact Option.some_ne_none _ h.symm
  cases steps_of_step hs with
  | env => exact h
  | returns hrunning => rw [TaskGroup.handle_finish_of_ne (hne hrunning), h]
  | panics hrunning => rw [TaskGroup.handle_finish_of_ne (hne hrunning), h]

/-- Only a task that was spawned ends in a panic that the group survives. -/
lemma spawned_of_panicked (h : P.system.Reachable s) {t : ι} {panic : π}
    (ht : s.handle t = some (.error panic)) : P.spawned t := by
  refine h.invariant (P := fun s => ∀ t panic, s.handle t = some (.error panic) → P.spawned t)
    ?_ ?_ t panic ht
  · intro t panic ht
    exact absurd ht.symm (Option.some_ne_none _)
  intro s a s' _ ih hstep t panic ht
  cases steps_of_step hstep with
  | env => exact ih t panic ht
  | @returns u _ _ _ _ =>
    by_cases htu : t = u
    · subst htu
      rw [TaskGroup.handle_finish_self] at ht
      exact absurd (Option.some.inj ht) nofun
    · rw [TaskGroup.handle_finish_of_ne htu] at ht
      exact ih t panic ht
  | @panics u _ _ hspawned =>
    by_cases htu : t = u
    · exact htu ▸ hspawned
    · rw [TaskGroup.handle_finish_of_ne htu] at ht
      exact ih t panic ht

/-- **The induction rule for results.**  If steps keep `Q`, and whenever all results so far
satisfy it so does each result that is ready, then in every reachable state whatever a task has
returned satisfies `Q`. -/
theorem returned_invariant {Q : TaskGroup ρ ε π → (t : ι) → ρ t → Prop}
    (hkeep : ∀ s a s' t ret, P.step s a = some s' → Q s t ret → Q s' t ret)
    (hready : ∀ s, P.system.Reachable s → (∀ t ret, s.handle t = some (.ok ret) → Q s t ret) →
      ∀ t, ∀ ret ∈ P.ready s t, Q s t ret)
    (h : P.system.Reachable s) : ∀ t ret, s.handle t = some (.ok ret) → Q s t ret := by
  refine h.invariant (P := fun s => ∀ t ret, s.handle t = some (.ok ret) → Q s t ret) ?_ ?_
  · intro t ret hret
    exact absurd hret.symm (Option.some_ne_none _)
  intro s a s' hr ih hstep t ret hret
  by_cases hold : s.handle t = some (.ok ret)
  · exact hkeep s a s' t ret hstep (ih t ret hold)
  refine hkeep s a s' t ret hstep ?_
  cases steps_of_step hstep with
  | env => exact absurd hret hold
  | @returns u _ ret' hrunning hbranch =>
    by_cases htu : t = u
    · subst htu
      rw [TaskGroup.handle_finish_self] at hret
      obtain rfl := Except.ok.inj (Option.some.inj hret)
      exact hready s hr ih t _ (List.mem_of_getElem? hbranch)
    · rw [TaskGroup.handle_finish_of_ne htu] at hret
      exact absurd hret hold
  | @panics u _ hrunning =>
    by_cases htu : t = u
    · subst htu
      rw [TaskGroup.handle_finish_self] at hret
      exact absurd (Option.some.inj hret) nofun
    · rw [TaskGroup.handle_finish_of_ne htu] at hret
      exact absurd hret hold

/-- What a task has returned was the result of a branch that was ready when it returned. -/
lemma exists_takes_of_handle {r : Run P.system} (hv : r.Visits s) {t : ι} {ret : ρ t}
    (h : s.handle t = some (.ok ret)) :
    ∃ s₀ branch, r.Takes s₀ (.returns t branch) ∧ (P.ready s₀ t)[branch]? = some ret := by
  refine r.invariant_of_takes (P := fun s => s.handle t = some (.ok ret) →
    ∃ s₀ branch, r.Takes s₀ (.returns t branch) ∧ (P.ready s₀ t)[branch]? = some ret) ?_ ?_ hv h
  · intro hret
    exact absurd hret.symm (Option.some_ne_none _)
  intro s a s' htakes ih hstep hret
  cases steps_of_step hstep with
  | env => exact ih hret
  | @returns u branch ret' _ hbranch =>
    by_cases htu : t = u
    · subst htu
      rw [TaskGroup.handle_finish_self] at hret
      obtain rfl := Except.ok.inj (Option.some.inj hret)
      exact ⟨s, branch, htakes, hbranch⟩
    · rw [TaskGroup.handle_finish_of_ne htu] at hret
      exact ih hret
  | @panics u =>
    by_cases htu : t = u
    · subst htu
      rw [TaskGroup.handle_finish_self] at hret
      exact absurd (Option.some.inj hret) nofun
    · rw [TaskGroup.handle_finish_of_ne htu] at hret
      exact ih hret

lemma exists_handle_of_takes {r : Run P.system} {t : ι} {branch : ℕ}
    (h : r.Takes s (.returns t branch)) :
    ∃ ret s', (P.ready s t)[branch]? = some ret ∧ r.Visits s' ∧ s'.handle t = some (.ok ret) := by
  obtain ⟨s', hs, hv⟩ := h.exists_step
  have hs : P.step s (.returns t branch) = some s' := hs
  cases steps_of_step hs with
  | @returns _ _ ret _ hret => exact ⟨ret, _, hret, hv, TaskGroup.handle_finish_self s t _⟩

/-! ## Groups that do not fail -/

variable (P) in
/-- The runs in which no task panics and the environment does only what is allowed. -/
def restrict (allowed : TaskGroup ρ ε π → α → Bool) : Program ρ ε α π :=
  { P with
    envStep := fun s a => if allowed s a then P.envStep s a else none
    spawned := fun _ => false }

variable {allowed : TaskGroup ρ ε π → α → Bool}

lemma step_of_restrict (hs : (P.restrict allowed).step s a = some s') :
    P.step s a = some s' := by
  cases a with
  | env a =>
    obtain ⟨env, henv, rfl⟩ := Option.map_eq_some_iff.mp hs
    obtain ⟨-, henv⟩ := Option.ite_none_right_eq_some.mp henv
    exact Option.map_eq_some_iff.mpr ⟨env, henv, rfl⟩
  | returns => exact hs
  | panics =>
    obtain ⟨⟨-, hspawned⟩, -⟩ := Option.ite_none_right_eq_some.mp hs
    cases hspawned

lemma exec_of_restrict {as : List (TaskAction ι α π)}
    (h : (P.restrict allowed).system.exec s as = some s') : P.system.exec s as = some s' :=
  System.exec_mono (fun _ _ _ => step_of_restrict) h

/-- So what is known of all runs is known of these. -/
lemma reachable_of_restrict (h : (P.restrict allowed).system.Reachable s) :
    P.system.Reachable s := by
  obtain ⟨as, has⟩ := h
  exact ⟨as, exec_of_restrict has⟩

/-- In such a run, what a task's handle has is what the task has returned. -/
lemma exists_ret_of_restrict (h : (P.restrict allowed).system.Reachable s) {t : ι}
    {res : Except π (ρ t)} (ht : s.handle t = some res) : ∃ ret, res = .ok ret := by
  rcases res with panic | ret
  · exact absurd (spawned_of_panicked h ht) nofun
  · exact ⟨ret, rfl⟩

lemma not_panicked_of_restrict (h : (P.restrict allowed).system.Reachable s) :
    ¬ ∃ t panic, s.handle t = some (.error panic) := by
  rintro ⟨t, panic, hpanic⟩
  exact absurd (spawned_of_panicked h hpanic) nofun

/-! ## Progress -/

/-- A task returns, or the environment does what `internal` says it does on its own. -/
def Internal (internal : α → Prop) : TaskAction ι α π → Prop
  | .env a => internal a
  | .returns _ _ => True
  | .panics _ _ => False

variable {internal : α → Prop}

/-- Where nothing internal can happen any more, a task with a ready branch has ended. -/
lemma exists_handle_of_quiescent (hq : P.system.Quiescent (Internal internal) s) {t : ι}
    {ret : ρ t} (hret : ret ∈ P.ready s t) : ∃ res, s.handle t = some res := by
  apply Option.ne_none_iff_exists'.mp
  intro hrunning
  obtain ⟨branch, hbranch⟩ := List.getElem?_of_mem hret
  have hstep : P.step s (.returns t branch) = none := hq (.returns t branch) trivial
  simp only [step, hrunning, Option.isNone_none, if_true, hbranch, Option.map_some] at hstep
  exact Option.some_ne_none _ hstep

lemma envStep_eq_none_of_quiescent (hq : P.system.Quiescent (Internal internal) s) {a : α}
    (ha : internal a) : P.envStep s a = none :=
  Option.map_eq_none_iff.mp (hq (.env a) ha)

/-- Where a restricted group comes to rest, the whole one does, if something that stays true makes
whatever is internal allowed. -/
lemma rest_of_restrict {allowed : TaskGroup ρ ε π → α → Bool} {Q : TaskGroup ρ ε π → Prop}
    (hkeep : ∀ t a t', Q t → P.step t a = some t' → Q t')
    (hallowed : ∀ t a, Q t → internal a → allowed t a)
    (hr : (P.restrict allowed).system.Reachable s) (hs : Q s) {as : List (TaskAction ι α π)}
    (hexec : (P.restrict allowed).system.exec s as = some s')
    (hq : (P.restrict allowed).system.Quiescent (Internal internal) s') :
    P.system.Reachable s' ∧ Q s' ∧ P.system.Quiescent (Internal internal) s' := by
  have hs' : Q s' := System.exec_invariant hs (fun t a t' _ => hkeep t a t')
    (exec_of_restrict hexec)
  refine ⟨reachable_of_restrict (hr.exec hexec), hs', ?_⟩
  intro a ha
  cases a with
  | env a =>
    have hstuck := envStep_eq_none_of_quiescent hq ha
    simp only [restrict, hallowed s' a hs' ha, if_true] at hstuck
    exact congrArg (Option.map _) hstuck
  | returns t branch => exact hq (.returns t branch) trivial
  | panics => exact ha.elim

variable [Fintype ι]

/-- How many tasks run. -/
def running (s : TaskGroup ρ ε π) : ℕ := (Finset.univ.filter fun t => (s.handle t).isNone).card

omit [DecidableEq ι] in
lemma running_le (s : TaskGroup ρ ε π) : running s ≤ Fintype.card ι := Finset.card_filter_le _ _

lemma running_finish {t : ι} (h : s.handle t = none) (res : Except π (ρ t)) :
    running (s.finish t res) < running s := by
  refine Finset.card_lt_card ?_
  rw [Finset.ssubset_iff_of_subset]
  · refine ⟨t, ?_, ?_⟩
    · simp [h]
    · simp
  · intro u hu
    by_cases hut : u = t
    · simp [hut] at hu
    · rw [Finset.mem_filter, TaskGroup.handle_finish_of_ne hut] at hu
      exact Finset.mem_filter.mpr hu

/-- Internal steps lower the number of tasks that run, or the environment's own measure. -/
lemma lowers {measure : ε → ℕ}
    (henv : ∀ s a env, internal a → P.envStep s a = some env → measure env < measure s.env) :
    P.system.Lowers (Internal internal) fun s => measure s.env + running s := by
  intro s a s' _ ha hstep
  show measure s'.env + running s' < measure s.env + running s
  cases steps_of_step hstep with
  | env h => exact Nat.add_lt_add_right (henv s _ _ ha h) _
  | returns hrunning => exact Nat.add_lt_add_left (running_finish hrunning _) _
  | panics => exact ha.elim

end Program

end

end Supervision
