import Mathlib.Data.List.Basic
import Mathlib.Data.PNat.Basic

/-!
# Queues and watch cells

Two kinds of channel between a sender and a receiver.

* A bounded queue (`Fifo`) loses nothing and keeps the order: a send waits while the queue is
  full, a receive while it is empty.  Waiting is `none`: the step is not enabled.
* A watch cell (`Watch`) keeps only the latest value, with a version that counts the values
  sent; a receiver remembers the version it has seen.  It may miss values, but what it reads is
  a subsequence of what was sent, and once it has seen the current version its last read is the
  latest value (`ReadUpTo`).
-/

namespace Channels

variable {α : Type*}

/-! ## Bounded queues -/

/-- A queue that never holds more than its capacity, the oldest item first. -/
structure Fifo (α : Type*) where
  capacity : ℕ+
  items : List α
  length_le : items.length ≤ capacity

namespace Fifo

def empty (capacity : ℕ+) : Fifo α where
  capacity
  items := []
  length_le := Nat.zero_le _

/-- `none` while the queue is full. -/
def send (q : Fifo α) (v : α) : Option (Fifo α) :=
  if h : q.items.length < q.capacity then
    some { q with
      items := q.items ++ [v]
      length_le := by
        rw [List.length_append, List.length_singleton]
        exact h }
  else none

/-- `none` while the queue is empty. -/
def recv (q : Fifo α) : Option (α × Fifo α) :=
  q.items.head?.map fun v => (v,
    { q with
      items := q.items.tail
      length_le := by
        rw [List.length_tail]
        exact Nat.le_trans (Nat.sub_le _ _) q.length_le })

lemma items_of_send {q q' : Fifo α} {v : α} (h : q.send v = some q') :
    q'.items = q.items ++ [v] := by
  rw [send] at h
  split at h
  · exact Option.some.inj h ▸ rfl
  · cases h

lemma items_of_recv {q q' : Fifo α} {v : α} (h : q.recv = some (v, q')) :
    q.items = v :: q'.items := by
  obtain ⟨w, hw, hq⟩ := Option.map_eq_some_iff.mp h
  obtain ⟨rfl, rfl⟩ := Prod.mk.inj hq
  exact List.eq_cons_of_mem_head? hw

end Fifo

/-! ## Watch cells -/

/-- The latest value, and how many have been sent. -/
structure Watch (α : Type*) where
  value : α
  version : ℕ := 0

namespace Watch

def send (w : Watch α) (v : α) : Watch α := { value := v, version := w.version + 1 }

/-- A cell that starts empty, after the values of the log have been sent to it. -/
structure Holds (w : Watch (Option α)) (log : List α) : Prop where
  value_eq : w.value = log.getLast?
  version_eq : w.version = log.length

lemma Holds.send {w : Watch (Option α)} {log : List α} (h : w.Holds log) (v : α) :
    (w.send (some v)).Holds (log ++ [v]) where
  value_eq := List.getLast?_concat.symm
  version_eq := by
    rw [List.length_append, List.length_singleton, ← h.version_eq]
    rfl

/-- What a receiver has read when its last read was of the version `k`: a subsequence of the
values up to it, which ends with it. -/
structure ReadUpTo (log : List α) (k : ℕ) (reads : List α) : Prop where
  le_length : k ≤ log.length
  sublist : reads.Sublist (log.take k)
  getLast?_eq : reads.getLast? = (log.take k).getLast?

variable {log reads : List α} {k : ℕ}

lemma readUpTo_nil : ReadUpTo ([] : List α) 0 [] := ⟨le_rfl, List.Sublist.refl [], rfl⟩

/-- A value that is sent is not yet read. -/
lemma ReadUpTo.send (h : ReadUpTo log k reads) (v : α) : ReadUpTo (log ++ [v]) k reads := by
  have htake : (log ++ [v]).take k = log.take k := List.take_append_of_le_length h.le_length
  refine ⟨?_, ?_, ?_⟩
  · rw [List.length_append]
    exact Nat.le_trans h.le_length (Nat.le_add_right _ _)
  · rw [htake]
    exact h.sublist
  · rw [htake]
    exact h.getLast?_eq

/-- Reading the latest value, after whatever was missed since the last read. -/
lemma ReadUpTo.read (h : ReadUpTo log k reads) (hk : k < log.length) {v : α}
    (hv : log.getLast? = some v) : ReadUpTo log log.length (reads ++ [v]) := by
  obtain ⟨front, rfl⟩ := List.getLast?_eq_some_iff.mp hv
  rw [List.length_append, List.length_singleton, Nat.lt_add_one_iff] at hk
  have htake : (front ++ [v]).take k = front.take k := List.take_append_of_le_length hk
  have hsub := h.sublist
  rw [htake] at hsub
  refine ⟨le_rfl, ?_, ?_⟩
  · rw [List.take_length]
    exact (hsub.trans (List.take_sublist k front)).append (List.Sublist.refl [v])
  · rw [List.take_length, List.getLast?_concat, List.getLast?_concat]

/-- A subsequence of everything sent. -/
lemma ReadUpTo.sublist_log (h : ReadUpTo log k reads) : reads.Sublist log :=
  h.sublist.trans (List.take_sublist k log)

/-- Who has seen the current version has read the latest value last. -/
lemma ReadUpTo.getLast?_of_length (h : ReadUpTo log log.length reads) :
    reads.getLast? = log.getLast? := by
  rw [h.getLast?_eq, List.take_length]

end Watch

end Channels
