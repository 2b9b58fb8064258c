import P2PRadio.Support.Transition

/-!
# Progress, and systems within systems

`System.Lowers` says that every internal action of a system lowers a measure.  Then internal
actions alone run for no longer than the measure of the state they start in
(`Lowers.length_le`), and they lead to a state in which none of them is enabled
(`Lowers.exists_quiescent`).  `exec_foldl` follows what a run has been through, beside its state,
and `exec_countdown` counts one kind of action among others.

`Simulates` says that a step of one system is a step of another, or none, once its states are
mapped.  So what holds of every reachable state of the second system holds of the first.
-/

namespace Transition

namespace System

variable {σ α : Type*} {M : System σ α}

lemma Reachable.exec {s s' : σ} {as : List α} (h : M.Reachable s) (has : M.exec s as = some s') :
    M.Reachable s' := by
  obtain ⟨before, hbefore⟩ := h
  refine ⟨before ++ as, ?_⟩
  rw [exec_append, hbefore]
  exact has

/-- An execution of one system is one of any other that takes its steps as well. -/
lemma exec_mono {N : System σ α} (h : ∀ s a s', M.step s a = some s' → N.step s a = some s')
    {s s' : σ} {as : List α} (hexec : M.exec s as = some s') : N.exec s as = some s' := by
  induction as generalizing s with
  | nil => exact hexec
  | cons a as ih =>
    obtain ⟨t, ht, hrest⟩ := Option.bind_eq_some_iff.mp hexec
    rw [exec_cons, h s a t ht]
    exact ih hrest

/-- What is kept of the past, beside the state: a relation between the two that every action
preserves holds at the end of an execution. -/
lemma exec_foldl {β : Type*} {P : σ → β → Prop} {f : β → α → β} {s s' : σ} {b : β} {as : List α}
    (hs : P s b) (hstep : ∀ t a t' b, a ∈ as → P t b → M.step t a = some t' → P t' (f b a))
    (hexec : M.exec s as = some s') : P s' (as.foldl f b) := by
  induction as generalizing s b with
  | nil => exact Option.some.inj hexec ▸ hs
  | cons a as ih =>
    obtain ⟨t, ht, hrest⟩ := Option.bind_eq_some_iff.mp hexec
    refine ih (hstep s a t b List.mem_cons_self hs ht) ?_ hrest
    intro u c u' b' hc
    exact hstep u c u' b' (List.mem_cons_of_mem a hc)

/-- What holds at the start of an execution and is preserved by its actions holds at its end. -/
lemma exec_invariant {P : σ → Prop} {s s' : σ} {as : List α} (hs : P s)
    (hstep : ∀ t a t', a ∈ as → P t → M.step t a = some t' → P t')
    (hexec : M.exec s as = some s') : P s' :=
  exec_foldl (P := fun t (_ : Unit) => P t) (f := fun b _ => b) (b := ()) hs
    (fun t a t' _ => hstep t a t') hexec

/-- An action that stays enabled can be taken any number of times. -/
lemma exists_exec_replicate {P : σ → Prop} {s : σ} {a : α} (hs : P s)
    (hstep : ∀ t, P t → ∃ t', M.step t a = some t' ∧ P t') (n : ℕ) :
    ∃ s', M.exec s (List.replicate n a) = some s' := by
  induction n generalizing s with
  | zero => exact ⟨s, rfl⟩
  | succ n ih =>
    obtain ⟨t, hst, ht⟩ := hstep s hs
    obtain ⟨s', hexec⟩ := ih ht
    refine ⟨s', ?_⟩
    rw [List.replicate_succ, exec_cons, hst]
    exact hexec

/-- If the actions in `p` take one off what is left, and the others add nothing to it, then an
execution takes off as many as it has actions in `p`. -/
lemma exec_countdown {P : σ → ℕ → Prop} {p : α → Bool} {s s' : σ} {n : ℕ} {as : List α}
    (hs : P s n)
    (hstep : ∀ t a t' m, a ∈ as → P t m → M.step t a = some t' → P t' (if p a then m - 1 else m))
    (hexec : M.exec s as = some s') : P s' (n - as.countP p) := by
  induction as generalizing s n with
  | nil => exact Option.some.inj hexec ▸ hs
  | cons a as ih =>
    obtain ⟨t, ht, hrest⟩ := Option.bind_eq_some_iff.mp hexec
    have hleft := ih (hstep s a t n List.mem_cons_self hs ht)
      (fun u b u' m hb => hstep u b u' m (List.mem_cons_of_mem a hb)) hrest
    by_cases ha : p a
    · rw [if_pos ha, Nat.sub_sub, Nat.add_comm] at hleft
      rwa [List.countP_cons_of_pos ha]
    · rw [if_neg ha] at hleft
      rwa [List.countP_cons_of_neg ha]

/-- No internal action is enabled. -/
def Quiescent (M : System σ α) (internal : α → Prop) (s : σ) : Prop :=
  ∀ a, internal a → M.step s a = none

/-- Every internal action enabled in a reachable state lowers the measure. -/
def Lowers (M : System σ α) (internal : α → Prop) (measure : σ → ℕ) : Prop :=
  ∀ s a s', M.Reachable s → internal a → M.step s a = some s' → measure s' < measure s

variable {internal : α → Prop} {measure : σ → ℕ}

/-- Internal actions run for no longer than the measure says. -/
lemma Lowers.length_le (h : M.Lowers internal measure) {s s' : σ} (hs : M.Reachable s)
    {as : List α} (hinternal : ∀ a ∈ as, internal a) (hexec : M.exec s as = some s') :
    as.length + measure s' ≤ measure s := by
  induction as generalizing s with
  | nil =>
    obtain rfl := Option.some.inj hexec
    exact Nat.le_of_eq (Nat.zero_add _)
  | cons a as ih =>
    obtain ⟨t, hstep, hrest⟩ := Option.bind_eq_some_iff.mp hexec
    have hlt : measure t < measure s := h s a t hs (hinternal a List.mem_cons_self) hstep
    have hle : as.length + measure s' ≤ measure t :=
      ih (hs.step hstep) (fun b hb => hinternal b (List.mem_cons_of_mem a hb)) hrest
    rw [List.length_cons]
    omega

end System

/-! ## Systems within systems -/

/-- Seen through `f`, the first system starts where the second one does, and a step of the first
is a step of the second or none. -/
structure Simulates {σ τ α β : Type*} (M : System σ α) (N : System τ β) (f : σ → τ) : Prop where
  init : f M.init = N.init
  step : ∀ s a s', M.step s a = some s' → f s' = f s ∨ ∃ b, N.step (f s) b = some (f s')

lemma Simulates.reachable {σ τ α β : Type*} {M : System σ α} {N : System τ β} {f : σ → τ}
    (h : Simulates M N f) {s : σ} (hs : M.Reachable s) : N.Reachable (f s) := by
  refine hs.invariant (P := fun s => N.Reachable (f s)) ⟨[], ?_⟩ ?_
  · rw [h.init]
    rfl
  · intro s a s' _ ih hstep
    rcases h.step s a s' hstep with heq | ⟨b, hb⟩
    · rw [heq]
      exact ih
    · exact ih.step hb

end Transition
