import Mathlib.Data.List.Basic
import Mathlib.Tactic.Ring

/-!
# Blocks interleaved into a stream at a fixed interval

A sender puts a block into a stream of symbols after every `n` of them.  Each symbol carries a
label, and the block that follows the symbol completing an interval is made from the label of
that symbol.  `r` is the number of symbols still missing from the running interval.

* `weave` is the stream with its blocks, `marks` the labels the blocks are made from.
* `advance` is what is missing after some symbols have passed; it depends on their number only,
  so the stream may be cut anywhere (`weave_append`).
* `getElem?_marks` finds the label of each block at its place in the stream.
* `weave_congr` says that the symbols and the marks are all a stream depends on.
-/

namespace Interleave

variable {α τ : Type*} (block : τ → List α) (n : ℕ)

/-- The symbols, with a block after every one that completes an interval. -/
def weave (r : ℕ) : List (α × τ) → List α
  | [] => []
  | x :: xs => if r ≤ 1 then x.1 :: (block x.2 ++ weave n xs) else x.1 :: weave (r - 1) xs

/-- The labels of the symbols that complete an interval. -/
def marks (r : ℕ) : List (α × τ) → List τ
  | [] => []
  | x :: xs => if r ≤ 1 then x.2 :: marks n xs else marks (r - 1) xs

/-- How many symbols are missing after `k` more of them. -/
def advance (r : ℕ) : ℕ → ℕ
  | 0 => r
  | k + 1 => if r ≤ 1 then advance n k else advance (r - 1) k

@[simp] lemma weave_nil (r : ℕ) : weave block n r [] = [] := rfl

@[simp] lemma marks_nil (r : ℕ) : marks n r ([] : List (α × τ)) = [] := rfl

@[simp] lemma advance_zero (r : ℕ) : advance n r 0 = r := rfl

/-- The stream may be cut anywhere. -/
lemma weave_append (r : ℕ) (xs ys : List (α × τ)) : weave block n r (xs ++ ys) =
    weave block n r xs ++ weave block n (advance n r xs.length) ys := by
  induction xs generalizing r with
  | nil => rfl
  | cons x xs ih =>
    simp only [List.cons_append, weave, List.length_cons, advance]
    split
    · rw [ih, List.cons_append, List.append_assoc]
    · rw [ih, List.cons_append]

lemma marks_append (r : ℕ) (xs ys : List (α × τ)) : marks n r (xs ++ ys) =
    marks n r xs ++ marks n (advance n r xs.length) ys := by
  induction xs generalizing r with
  | nil => rfl
  | cons x xs ih =>
    simp only [List.cons_append, marks, List.length_cons, advance]
    split
    · rw [ih, List.cons_append]
    · exact ih _

lemma weave_of_length_lt {r : ℕ} {xs : List (α × τ)} (h : xs.length < r) :
    weave block n r xs = xs.map Prod.fst := by
  induction xs generalizing r with
  | nil => rfl
  | cons x xs ih =>
    rw [List.length_cons] at h
    rw [weave, if_neg (by omega), ih (by omega), List.map_cons]

lemma marks_of_length_lt {r : ℕ} {xs : List (α × τ)} (h : xs.length < r) : marks n r xs = [] := by
  induction xs generalizing r with
  | nil => rfl
  | cons x xs ih =>
    rw [List.length_cons] at h
    rw [marks, if_neg (by omega), ih (by omega)]

lemma advance_of_lt {r k : ℕ} (h : k < r) : advance n r k = r - k := by
  induction k generalizing r with
  | zero => rfl
  | succ k ih =>
    rw [advance, if_neg (by omega), ih (by omega)]
    omega

lemma advance_add (r j k : ℕ) : advance n r (j + k) = advance n (advance n r j) k := by
  induction j generalizing r with
  | zero => rw [Nat.zero_add, advance_zero]
  | succ j ih =>
    rw [Nat.add_right_comm, advance, advance]
    split
    · exact ih n
    · exact ih (r - 1)

lemma advance_self {r : ℕ} (h : 0 < r) : advance n r r = n := by
  induction r with
  | zero => exact absurd h (Nat.lt_irrefl 0)
  | succ r ih =>
    rw [advance]
    rcases Nat.eq_zero_or_pos r with rfl | hr
    · rfl
    · rw [if_neg (by omega)]
      exact ih hr

/-- Symbols that end the running interval are followed by the block of the last of them. -/
lemma weave_of_length_eq {r : ℕ} (hr : 0 < r) {xs : List (α × τ)} (h : xs.length = r) :
    ∃ y ∈ xs, weave block n r xs = xs.map Prod.fst ++ block y.2 ∧ marks n r xs = [y.2] := by
  induction xs generalizing r with
  | nil => exact absurd h (Nat.ne_of_lt hr)
  | cons x xs ih =>
    rw [List.length_cons] at h
    rcases Nat.eq_zero_or_pos xs.length with h0 | hpos
    · obtain rfl := List.length_eq_zero_iff.mp h0
      obtain rfl : r = 1 := by omega
      refine ⟨x, List.mem_singleton_self x, ?_, rfl⟩
      rw [weave, if_pos le_rfl, weave_nil, List.append_nil, List.map_singleton,
        List.singleton_append]
    · obtain ⟨y, hy, hweave, hmarks⟩ := ih (r := r - 1) (by omega) (by omega)
      refine ⟨y, List.mem_cons_of_mem x hy, ?_, ?_⟩
      · rw [weave, if_neg (by omega), hweave, List.map_cons, List.cons_append]
      · rw [marks, if_neg (by omega), hmarks]

/-! ## The labels, by place -/

lemma getElem?_marks {r : ℕ} (hr : 0 < r) (hn : r ≤ n) (xs : List (α × τ)) (k : ℕ) :
    (marks n r xs)[k]? = xs[r - 1 + k * n]?.map Prod.snd := by
  induction xs generalizing r k with
  | nil => rfl
  | cons x xs ih =>
    rw [marks]
    split
    · obtain rfl : r = 1 := by omega
      rcases k with _ | k
      · simp
      · have hidx : 1 - 1 + (k + 1) * n = n - 1 + k * n + 1 := by
          rw [Nat.add_mul]
          omega
        rw [List.getElem?_cons_succ, ih hn le_rfl, hidx, List.getElem?_cons_succ]
    · have hidx : r - 1 + k * n = r - 1 - 1 + k * n + 1 := by omega
      rw [ih (by omega) (by omega), hidx, List.getElem?_cons_succ]

lemma length_marks {r : ℕ} (hr : 0 < r) (hn : r ≤ n) (xs : List (α × τ)) :
    (marks n r xs).length = (n - r + xs.length) / n := by
  induction xs generalizing r with
  | nil =>
    rw [marks_nil, List.length_nil, List.length_nil, Nat.div_eq_of_lt (by omega)]
  | cons x xs ih =>
    rw [marks, List.length_cons]
    split
    · have hsum : n - r + (xs.length + 1) = n - n + xs.length + n := by omega
      rw [List.length_cons, ih (by omega) le_rfl, hsum, Nat.add_div_right _ (by omega)]
    · have hsum : n - r + (xs.length + 1) = n - (r - 1) + xs.length := by omega
      rw [ih (by omega) (by omega), hsum]

/-- Counted from the start of a stream of which `total` symbols have passed, the symbols that
have a block are those at the multiples of the interval. -/
lemma place_mod_eq_zero {n : ℕ} (h : 0 < n) (total k : ℕ) :
    (total + (n - total % n - 1 + k * n) + 1) % n = 0 := by
  have hlt := Nat.mod_lt total h
  have hdiv := Nat.div_add_mod total n
  have hplace : total + (n - total % n - 1 + k * n) + 1 = n * (total / n + 1 + k) := by
    rw [Nat.mul_add, Nat.mul_add, Nat.mul_one, Nat.mul_comm n k]
    omega
  rw [hplace]
  exact Nat.mul_mod_right _ _

/-! ## Two streams of the same symbols -/

/-- The blocks depend on the marks only. -/
lemma weave_congr {r : ℕ} {xs ys : List (α × τ)} (hsymbols : xs.map Prod.fst = ys.map Prod.fst)
    (hmarks : marks n r xs = marks n r ys) : weave block n r xs = weave block n r ys := by
  induction xs generalizing r ys with
  | nil =>
    obtain rfl : ys = [] := List.map_eq_nil_iff.mp hsymbols.symm
    rfl
  | cons x xs ih =>
    obtain _ | ⟨y, ys⟩ := ys
    · cases hsymbols
    obtain ⟨hxy, hrest⟩ := List.cons.inj hsymbols
    rw [marks, marks] at hmarks
    rw [weave, weave, hxy]
    by_cases hr : r ≤ 1
    · rw [if_pos hr, if_pos hr] at hmarks ⊢
      obtain ⟨hlabel, hmarks⟩ := List.cons.inj hmarks
      rw [hlabel, ih hrest hmarks]
    · rw [if_neg hr, if_neg hr] at hmarks ⊢
      rw [ih hrest hmarks]

/-- Labels that agree wherever an interval is completed give the same marks. -/
lemma marks_congr {r : ℕ} (hr : 0 < r) (hn : r ≤ n) {xs ys : List (α × τ)}
    (hlabels : ∀ k, (xs.map Prod.snd)[r - 1 + k * n]? = (ys.map Prod.snd)[r - 1 + k * n]?) :
    marks n r xs = marks n r ys := by
  apply List.ext_getElem?
  intro k
  rw [getElem?_marks n hr hn, getElem?_marks n hr hn, ← List.getElem?_map, ← List.getElem?_map]
  exact hlabels k

/-- What is missing, counted from the start of the running interval. -/
lemma advance_eq {r : ℕ} (hr : 0 < r) (hn : r ≤ n) (k : ℕ) :
    advance n r k = n - (n - r + k) % n := by
  induction k generalizing r with
  | zero =>
    rw [advance_zero, Nat.add_zero, Nat.mod_eq_of_lt (by omega)]
    omega
  | succ k ih =>
    rw [advance]
    split
    · have hsum : n - r + (k + 1) = n - n + k + n := by omega
      rw [ih (by omega) le_rfl, hsum, Nat.add_mod_right]
    · have hsum : n - r + (k + 1) = n - (r - 1) + k := by omega
      rw [ih (by omega) (by omega), hsum]

end Interleave
