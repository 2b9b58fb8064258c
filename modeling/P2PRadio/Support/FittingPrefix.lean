import Mathlib.Data.List.Basic
import Mathlib.Data.List.Infix
import Mathlib.Algebra.BigOperators.Group.List.Basic
import Mathlib.Algebra.GroupWithZero.Nat

/-!
# The longest prefix within a budget

Elements of a list are taken from the left for as long as their weights fit in a budget, and
taking stops at the first element that does not fit, even where a later one would.  Since
weights are natural numbers this greedy prefix is the longest prefix within the budget
(`isGreatest_takeFitting`), and taking from it again changes nothing.
-/

namespace FittingPrefix

variable {α : Type*} (w : α → ℕ)

/-- The weight of a list: the sum of the weights of its elements. -/
def weight (xs : List α) : ℕ := (xs.map w).sum

/-- Take elements while they fit in the budget. -/
def takeFitting : ℕ → List α → List α
  | _, [] => []
  | budget, x :: xs => if w x ≤ budget then x :: takeFitting (budget - w x) xs else []

@[simp] lemma weight_nil : weight w [] = 0 := rfl

@[simp] lemma weight_cons (x : α) (xs : List α) : weight w (x :: xs) = w x + weight w xs := by
  simp [weight]

variable {w}

lemma takeFitting_cons_of_le {budget : ℕ} {x : α} (h : w x ≤ budget) (xs : List α) :
    takeFitting w budget (x :: xs) = x :: takeFitting w (budget - w x) xs :=
  if_pos h

lemma takeFitting_cons_of_lt {budget : ℕ} {x : α} (h : budget < w x) (xs : List α) :
    takeFitting w budget (x :: xs) = [] :=
  if_neg (Nat.not_le.mpr h)

variable (w)

lemma takeFitting_prefix_self (budget : ℕ) (xs : List α) : takeFitting w budget xs <+: xs := by
  induction xs generalizing budget with
  | nil => exact List.prefix_rfl
  | cons x xs ih =>
    rcases Nat.lt_or_ge budget (w x) with h | h
    · rw [takeFitting_cons_of_lt h]
      exact List.nil_prefix
    · rw [takeFitting_cons_of_le h, List.prefix_cons_inj]
      exact ih _

lemma weight_takeFitting_le (budget : ℕ) (xs : List α) :
    weight w (takeFitting w budget xs) ≤ budget := by
  induction xs generalizing budget with
  | nil => exact Nat.zero_le _
  | cons x xs ih =>
    rcases Nat.lt_or_ge budget (w x) with h | h
    · rw [takeFitting_cons_of_lt h]
      exact Nat.zero_le _
    · rw [takeFitting_cons_of_le h, weight_cons]
      have := ih (budget - w x)
      omega

/-- Every prefix within the budget is a prefix of the greedy one. -/
lemma prefix_takeFitting_of_le {budget : ℕ} {xs p : List α} (hp : p <+: xs)
    (hw : weight w p ≤ budget) : p <+: takeFitting w budget xs := by
  induction xs generalizing budget p with
  | nil => exact hp
  | cons x xs ih =>
    rcases p with _ | ⟨y, p⟩
    · exact List.nil_prefix
    · obtain ⟨rfl, hp'⟩ := List.cons_prefix_cons.mp hp
      rw [weight_cons] at hw
      rw [takeFitting_cons_of_le (by omega), List.prefix_cons_inj]
      exact ih hp' (by omega)

/-- **The greedy prefix is the longest prefix within the budget.** -/
theorem isGreatest_takeFitting (budget : ℕ) (xs : List α) :
    takeFitting w budget xs <+: xs ∧ weight w (takeFitting w budget xs) ≤ budget ∧
      ∀ p, p <+: xs → weight w p ≤ budget → p <+: takeFitting w budget xs :=
  ⟨takeFitting_prefix_self w budget xs, weight_takeFitting_le w budget xs,
    fun _ hp hw => prefix_takeFitting_of_le w hp hw⟩

lemma takeFitting_of_weight_le {budget : ℕ} {xs : List α} (h : weight w xs ≤ budget) :
    takeFitting w budget xs = xs :=
  ((takeFitting_prefix_self w budget xs).eq_of_length_le
    (prefix_takeFitting_of_le w List.prefix_rfl h).length_le)

@[simp] lemma takeFitting_takeFitting (budget : ℕ) (xs : List α) :
    takeFitting w budget (takeFitting w budget xs) = takeFitting w budget xs :=
  takeFitting_of_weight_le w (weight_takeFitting_le w budget xs)

end FittingPrefix
