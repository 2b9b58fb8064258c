import Mathlib.Data.List.Basic
import Mathlib.Data.List.Induction

/-!
# Labelled transition systems

A `System` is an initial state with a partial step function: `step s a = none` says that the
action `a` is not enabled in `s`.  A run is a list of actions that executes from the initial
state, and carries the state it ends in, so that every `Run` is one by construction.

* `Run.invariant` is the induction rule: what holds initially and is preserved by each
  enabled step holds in every state a run visits.
* `Run.forall_visits_iff` is the exact form of a safety property that some steps break: the
  property holds in every visited state exactly when every step taken meets a condition.
-/

namespace Transition

/-- An initial state and a partial step function. -/
structure System (σ α : Type*) where
  init : σ
  step : σ → α → Option σ

variable {σ α : Type*}

namespace System

variable (M : System σ α)

/-- Execute a list of actions, failing at the first one that is not enabled. -/
def exec : σ → List α → Option σ
  | s, [] => some s
  | s, a :: as => (M.step s a).bind fun s' => exec s' as

@[simp] lemma exec_nil (s : σ) : M.exec s [] = some s := rfl

@[simp] lemma exec_cons (s : σ) (a : α) (as : List α) :
    M.exec s (a :: as) = (M.step s a).bind fun s' => M.exec s' as := rfl

lemma exec_append (s : σ) (as bs : List α) :
    M.exec s (as ++ bs) = (M.exec s as).bind fun s' => M.exec s' bs := by
  induction as generalizing s with
  | nil => rfl
  | cons a as ih =>
    simp only [List.cons_append, exec_cons]
    cases M.step s a with
    | none => rfl
    | some s' => exact ih s'

/-- The last step of an execution. -/
lemma exec_concat (s : σ) (as : List α) (a : α) :
    M.exec s (as ++ [a]) = (M.exec s as).bind fun s' => M.step s' a := by
  rw [exec_append]
  congr 1
  funext s'
  cases h : M.step s' a <;> simp [h]

/-- The states some execution from the initial state ends in. -/
def Reachable (s : σ) : Prop := ∃ as, M.exec M.init as = some s

variable {M} in
lemma Reachable.step {s s' : σ} {a : α} (h : M.Reachable s) (hs : M.step s a = some s') :
    M.Reachable s' := by
  obtain ⟨as, has⟩ := h
  exact ⟨as ++ [a], by rw [exec_concat, has]; exact hs⟩

variable {M} in
/-- What holds initially and is preserved by every enabled step holds of every reachable
state. -/
theorem Reachable.invariant {P : σ → Prop} (hinit : P M.init)
    (hstep : ∀ s a s', M.Reachable s → P s → M.step s a = some s' → P s') {s : σ}
    (h : M.Reachable s) : P s := by
  obtain ⟨as, has⟩ := h
  induction as using List.reverseRecOn generalizing s with
  | nil => exact Option.some.inj has ▸ hinit
  | append_singleton as a ih =>
    rw [exec_concat, Option.bind_eq_some_iff] at has
    obtain ⟨t, ht, hts⟩ := has
    exact hstep t a s ⟨as, ht⟩ (ih ht) hts

end System

/-! ## Runs -/

/-- A list of actions that executes from the initial state. -/
structure Run (M : System σ α) where
  actions : List α
  final : σ
  exec_eq : M.exec M.init actions = some final

namespace Run

variable {M : System σ α}

/-- The run of a list of actions that executes. -/
def ofActions (as : List α) (h : (M.exec M.init as).isSome) : Run M where
  actions := as
  final := (M.exec M.init as).get h
  exec_eq := (Option.some_get h).symm

/-- The run passes through the state `s`. -/
def Visits (r : Run M) (s : σ) : Prop :=
  ∃ as, as <+: r.actions ∧ M.exec M.init as = some s

/-- The run takes the action `a` in the state `s`. -/
def Takes (r : Run M) (s : σ) (a : α) : Prop :=
  ∃ as, as ++ [a] <+: r.actions ∧ M.exec M.init as = some s

lemma visits_final (r : Run M) : r.Visits r.final :=
  ⟨r.actions, List.prefix_rfl, r.exec_eq⟩

lemma Visits.reachable {r : Run M} {s : σ} (h : r.Visits s) : M.Reachable s := by
  obtain ⟨as, -, has⟩ := h
  exact ⟨as, has⟩

/-- From a state it passes through, the run goes on to its last. -/
lemma Visits.exists_exec {r : Run M} {s : σ} (h : r.Visits s) :
    ∃ as, M.exec s as = some r.final := by
  obtain ⟨as, ⟨bs, hbs⟩, has⟩ := h
  have hexec := r.exec_eq
  rw [← hbs, System.exec_append, has] at hexec
  exact ⟨bs, hexec⟩

lemma Takes.visits {r : Run M} {s : σ} {a : α} (h : r.Takes s a) : r.Visits s := by
  obtain ⟨as, hp, has⟩ := h
  exact ⟨as, (List.prefix_append as [a]).trans hp, has⟩

/-- An action taken was enabled, and the run passes through the state it leads to. -/
lemma Takes.exists_step {r : Run M} {s : σ} {a : α} (h : r.Takes s a) :
    ∃ s', M.step s a = some s' ∧ r.Visits s' := by
  obtain ⟨as, ⟨bs, hbs⟩, has⟩ := h
  have hexec := r.exec_eq
  rw [← hbs, System.exec_append, System.exec_concat, has] at hexec
  obtain ⟨s', hs', -⟩ := Option.bind_eq_some_iff.mp hexec
  refine ⟨s', hs', as ++ [a], ⟨bs, hbs⟩, ?_⟩
  rw [System.exec_concat, has]
  exact hs'

/-- What holds initially and is preserved by every enabled step holds in every state a run
visits. -/
theorem invariant {P : σ → Prop} (hinit : P M.init)
    (hstep : ∀ s a s', M.Reachable s → P s → M.step s a = some s' → P s') (r : Run M) {s : σ}
    (h : r.Visits s) : P s :=
  h.reachable.invariant hinit hstep

/-- The same for a property that the steps of this run preserve. -/
theorem invariant_of_takes {P : σ → Prop} (r : Run M) (hinit : P M.init)
    (hstep : ∀ s a s', r.Takes s a → P s → M.step s a = some s' → P s') {s : σ}
    (h : r.Visits s) : P s := by
  obtain ⟨as, hp, has⟩ := h
  induction as using List.reverseRecOn generalizing s with
  | nil => exact Option.some.inj has ▸ hinit
  | append_singleton as a ih =>
    rw [System.exec_concat, Option.bind_eq_some_iff] at has
    obtain ⟨t, ht, hts⟩ := has
    exact hstep t a s ⟨as, hp, ht⟩ (ih ((List.prefix_append as [a]).trans hp) ht) hts

/-- The exact form of a safety property that some steps break: `J` strengthens `P` and is
kept by the steps that meet `C`, and a step that does not meet `C` leads out of `P`.  Then
`P` holds in every state of a run exactly when every step of the run meets `C`. -/
theorem forall_visits_iff {P J : σ → Prop} {C : σ → α → Prop} (hinit : J M.init)
    (himp : ∀ s, M.Reachable s → J s → P s)
    (hgood : ∀ s a s', M.Reachable s → J s → M.step s a = some s' → C s a → J s')
    (hbad : ∀ s a s', M.Reachable s → M.step s a = some s' → ¬ C s a → ¬ P s')
    (r : Run M) : (∀ s, r.Visits s → P s) ↔ ∀ s a, r.Takes s a → C s a := by
  constructor
  · intro hP s a h
    obtain ⟨s', hs', hv⟩ := h.exists_step
    by_contra hC
    exact hbad s a s' h.visits.reachable hs' hC (hP s' hv)
  · intro hC s h
    have hJ : J s := r.invariant_of_takes hinit
      (fun t a t' ht hJt hst => hgood t a t' ht.visits.reachable hJt hst (hC t a ht)) h
    exact himp s h.reachable hJ

end Run

end Transition
