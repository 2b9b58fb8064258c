import Mathlib.Data.List.Basic
import Mathlib.Data.PNat.Defs

/-!
# Broadcast channels

A broadcast channel keeps the latest values sent to it in a ring of fixed capacity.  Every
receiver is a position in the sequence of all values: it reads them in order at its own pace,
and when the value at its position has been overwritten it is told how many values it missed
and continues with the oldest one still stored.

`Holds` relates a channel to the log of the values stored in it so far, and `recv_cases` reads
a receive off that log.  `unread` checks what a receiver was told against the values it should
have had: no value but those it was told it missed may be gone.
-/

namespace Broadcast

/-- `tail` is the position of the next value, so the values stored are those at the positions
from `tail - buffer.length` on, the oldest first. -/
structure Channel (α : Type*) where
  capacity : ℕ
  buffer : List α
  tail : ℕ
  length_buffer : buffer.length = min capacity tail

/-- What a receive returns. -/
inductive Recv (α : Type*) where
  | value (v : α)
  | lagged (missed : ℕ)
  | empty
  deriving DecidableEq, Repr

variable {α : Type*}

namespace Channel

/-- A ring has a power of two of slots, and at least the capacity asked for. -/
def new (capacity : ℕ+) : Channel α where
  capacity := (capacity : ℕ).nextPowerOfTwo
  buffer := []
  tail := 0
  length_buffer := (Nat.min_zero _).symm

/-- Store a value, over the oldest one when the ring is full. -/
def send (ch : Channel α) (v : α) : Channel α where
  capacity := ch.capacity
  buffer := (ch.buffer ++ [v]).drop (ch.buffer.length + 1 - ch.capacity)
  tail := ch.tail + 1
  length_buffer := by
    have := ch.length_buffer
    rw [List.length_drop, List.length_append, List.length_singleton]
    omega

/-- Receive at a position: the outcome, and the position afterwards. -/
def recv (ch : Channel α) (next : ℕ) : Recv α × ℕ :=
  let oldest := ch.tail - ch.buffer.length
  if next < oldest then (.lagged (oldest - next), oldest)
  else match ch.buffer[next - oldest]? with
    | some v => (.value v, next + 1)
    | none => (.empty, next)

/-- The channel after the values of the log have been stored in it. -/
structure Holds (ch : Channel α) (log : List α) : Prop where
  tail_eq : ch.tail = log.length
  buffer_eq : ch.buffer = log.drop (log.length - ch.capacity)

lemma holds_new (capacity : ℕ+) : (new capacity : Channel α).Holds [] :=
  ⟨rfl, List.drop_nil.symm⟩

variable {ch : Channel α} {log : List α}

lemma Holds.send (h : ch.Holds log) (v : α) : (ch.send v).Holds (log ++ [v]) := by
  refine ⟨?_, ?_⟩
  · rw [List.length_append, List.length_singleton, ← h.tail_eq]
    rfl
  · have hlen : ch.buffer.length = log.length - (log.length - ch.capacity) := by
      rw [h.buffer_eq, List.length_drop]
    have hle : log.length - ch.capacity ≤ log.length := Nat.sub_le _ _
    show (ch.buffer ++ [v]).drop (ch.buffer.length + 1 - ch.capacity) = _
    rw [h.buffer_eq, ← List.drop_append_of_le_length hle, List.drop_drop]
    congr 1
    rw [h.buffer_eq, List.length_drop] at hlen
    rw [List.length_append, List.length_singleton, List.length_drop]
    show _ = log.length + 1 - ch.capacity
    omega

/-- A value that has been overwritten is not received. -/
lemma Holds.recv_of_lt (h : ch.Holds log) {next : ℕ} (hlt : next < log.length - ch.capacity) :
    ch.recv next = (.lagged (log.length - ch.capacity - next), log.length - ch.capacity) := by
  have holdest : ch.tail - ch.buffer.length = log.length - ch.capacity := by
    rw [h.tail_eq, h.buffer_eq, List.length_drop]
    omega
  simp only [recv, holdest, if_pos hlt]

/-- **A receive, read off the log.**  It returns the value at the receiver's position, or
reports how many values separate it from the oldest one stored, or finds the receiver at the
end of the log. -/
theorem Holds.recv_cases (h : ch.Holds log) {next : ℕ} (hn : next ≤ log.length) :
    (∃ v, ch.recv next = (.value v, next + 1) ∧ log.drop next = v :: log.drop (next + 1)) ∨
    (∃ missed, 0 < missed ∧ next + missed = log.length - ch.capacity ∧
      ch.recv next = (.lagged missed, next + missed)) ∨
    (next = log.length ∧ ch.recv next = (.empty, next)) := by
  have holdest : ch.tail - ch.buffer.length = log.length - ch.capacity := by
    rw [h.tail_eq, h.buffer_eq, List.length_drop]
    omega
  have hrecv : ch.recv next =
      if next < log.length - ch.capacity then
        (.lagged (log.length - ch.capacity - next), log.length - ch.capacity)
      else match ch.buffer[next - (log.length - ch.capacity)]? with
        | some v => (.value v, next + 1)
        | none => (.empty, next) := by
    rw [recv, holdest]
  rcases Nat.lt_or_ge next (log.length - ch.capacity) with hlt | hge
  · refine Or.inr (Or.inl ⟨log.length - ch.capacity - next, by omega, by omega, ?_⟩)
    rw [hrecv, if_pos hlt]
    congr 1
    omega
  · have hget : ch.buffer[next - (log.length - ch.capacity)]? = log[next]? := by
      rw [h.buffer_eq, List.getElem?_drop]
      congr 1
      omega
    rw [hrecv, if_neg (by omega), hget]
    rcases Nat.lt_or_ge next log.length with hlt | hle
    · refine Or.inl ⟨log[next], ?_, List.drop_eq_getElem_cons hlt⟩
      rw [List.getElem?_eq_getElem hlt]
    · refine Or.inr (Or.inr ⟨by omega, ?_⟩)
      rw [List.getElem?_eq_none hle]

end Channel

/-! ## Accounting for what was missed -/

section Unread

variable {ε : Type*} [DecidableEq α] (missed : ε → ℕ)

/-- What is left of the values after these outcomes: each value received is the next one, and
an error says how many are missing before the next.  `none` if an outcome is anything else. -/
def unread : List α → List (Except ε α) → Option (List α)
  | values, [] => some values
  | v :: values, .ok w :: outcomes => if v = w then unread values outcomes else none
  | [], .ok _ :: _ => none
  | values, .error err :: outcomes =>
    if 0 < missed err ∧ missed err ≤ values.length then
      unread (values.drop (missed err)) outcomes
    else none

variable {missed}

@[simp] lemma unread_nil (values : List α) : unread missed values [] = some values := by
  cases values <;> rfl

@[simp] lemma unread_ok (v : α) (values : List α) (outcomes : List (Except ε α)) :
    unread missed (v :: values) (.ok v :: outcomes) = unread missed values outcomes := by
  rw [unread, if_pos rfl]

lemma unread_error {err : ε} {values : List α} (hpos : 0 < missed err)
    (hle : missed err ≤ values.length) (outcomes : List (Except ε α)) :
    unread missed values (.error err :: outcomes) =
      unread missed (values.drop (missed err)) outcomes := by
  rw [unread, if_pos ⟨hpos, hle⟩]

/-- Outcomes are accounted for one after the other. -/
lemma unread_append {values rest : List α} {outcomes : List (Except ε α)}
    (h : unread missed values outcomes = some rest) (more : List (Except ε α)) :
    unread missed values (outcomes ++ more) = unread missed rest more := by
  induction outcomes generalizing values with
  | nil =>
    rw [unread_nil] at h
    rw [Option.some.inj h, List.nil_append]
  | cons outcome outcomes ih =>
    rcases outcome with err | w
    · rw [unread] at h
      split at h
      · next hle =>
        rw [List.cons_append, unread_error hle.1 hle.2]
        exact ih h
      · cases h
    · rcases values with _ | ⟨v, values⟩
      · cases h
      · rw [unread] at h
        split at h
        · next heq =>
          subst heq
          rw [List.cons_append, unread_ok]
          exact ih h
        · cases h

/-- Values that come later are left unread. -/
lemma unread_append_values {values rest : List α} {outcomes : List (Except ε α)}
    (h : unread missed values outcomes = some rest) (later : List α) :
    unread missed (values ++ later) outcomes = some (rest ++ later) := by
  induction outcomes generalizing values with
  | nil =>
    rw [unread_nil] at h ⊢
    rw [Option.some.inj h]
  | cons outcome outcomes ih =>
    rcases outcome with err | w
    · rw [unread] at h
      split at h
      · next hle =>
        have hle' : missed err ≤ (values ++ later).length := by
          rw [List.length_append]
          exact Nat.le_trans hle.2 (Nat.le_add_right _ _)
        rw [unread_error hle.1 hle', List.drop_append_of_le_length hle.2]
        exact ih h
      · cases h
    · rcases values with _ | ⟨v, values⟩
      · cases h
      · rw [unread] at h
        split at h
        · next heq =>
          subst heq
          rw [List.cons_append, unread_ok]
          exact ih h
        · cases h

end Unread

end Broadcast
