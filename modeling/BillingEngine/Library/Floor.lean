import Mathlib.Algebra.Order.Ring.Int
import Mathlib.Algebra.BigOperators.Group.List.Basic
import Mathlib.Tactic.Ring

-- Sums of quotients which are rounded down one by one, for a positive divisor.
namespace Floor

variable {d a b : Int} {xs : List Int} {groups : List (List Int)}

theorem add_le (hd : 0 < d) : a / d + b / d ≤ (a + b) / d := by
  refine Int.le_ediv_of_mul_le hd ?_
  rw [add_mul]
  exact add_le_add (Int.ediv_mul_le a hd.ne') (Int.ediv_mul_le b hd.ne')

theorem le_add (hd : 0 < d) : (a + b) / d ≤ a / d + b / d + 1 := by
  refine Int.le_of_lt_add_one <| Int.ediv_lt_of_lt_mul hd ?_
  have ha := Int.lt_ediv_add_one_mul_self a hd
  have hb := Int.lt_ediv_add_one_mul_self b hd
  calc a + b < (a / d + 1) * d + (b / d + 1) * d := add_lt_add ha hb
    _ = (a / d + b / d + 1 + 1) * d := by ring

-- Rounding a sum once is never below rounding its parts.
theorem sum_le (hd : 0 < d) : (xs.map (· / d)).sum ≤ xs.sum / d := by
  induction xs
  case nil         => simp
  case cons x _ hi =>
    simp only [List.map_cons, List.sum_cons]
    exact le_trans (Int.add_le_add_left hi _) (add_le hd)

-- Every part but one can lose a unit.
theorem le_sum (hd : 0 < d) (hx : xs ≠ []) :
    xs.sum / d ≤ (xs.map (· / d)).sum + (xs.length - 1) := by
  induction xs
  case nil          => contradiction
  case cons x xs hi =>
    cases xs
    case nil       => simp
    case cons y xs =>
      have ht := hi (by simp)
      have hs : (x + (y :: xs).sum) / d ≤ x / d + (y :: xs).sum / d + 1 := le_add hd
      simp only [List.map_cons, List.sum_cons, List.length_cons, Nat.cast_add] at ht hs ⊢
      omega

-- The parts are first added up in groups.

theorem sum_le_groups (hd : 0 < d) :
    (groups.flatten.map (· / d)).sum ≤ (groups.map fun g => g.sum / d).sum := by
  induction groups
  case nil         => simp
  case cons g _ hi =>
    simp only [List.flatten_cons, List.map_append, List.sum_append, List.map_cons, List.sum_cons]
    exact add_le_add (sum_le hd) hi

theorem groups_le_sum (hd : 0 < d) (hg : ∀ g ∈ groups, g ≠ []) :
    (groups.map fun g => g.sum / d).sum ≤
      (groups.flatten.map (· / d)).sum + (groups.flatten.length - groups.length) := by
  induction groups
  case nil         => simp
  case cons g _ hi =>
    obtain ⟨hg, ht⟩ := List.forall_mem_cons.mp hg
    have hs := le_sum hd hg
    have hi := hi ht
    simp only [List.flatten_cons, List.map_append, List.sum_append, List.map_cons, List.sum_cons,
      List.length_append, List.length_cons, Nat.cast_add] at hi ⊢
    omega

theorem groups_le (hd : 0 < d) :
    (groups.map fun g => g.sum / d).sum ≤ groups.flatten.sum / d := by
  have hs : ((groups.map List.sum).map (· / d)).sum ≤ (groups.map List.sum).sum / d := sum_le hd
  rwa [List.map_map, ← List.sum_flatten] at hs

end Floor
