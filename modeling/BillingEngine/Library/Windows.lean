import Mathlib.Order.Monotone.Basic
import BillingEngine.Library.Rows

-- Half-open windows on a linear order. They may be empty.
structure Window (τ : Type) [LE τ] where
  start   : τ
  stop    : τ
  ordered : start ≤ stop
  deriving DecidableEq, Repr

namespace Window

variable {τ τ' : Type} [LinearOrder τ] [LinearOrder τ']

def Contains (w : Window τ) (t : τ) : Prop :=
  w.start ≤ t ∧ t < w.stop

instance {w : Window τ} : DecidablePred w.Contains :=
  fun _ => inferInstanceAs <| Decidable (_ ∧ _)

def map (f : τ → τ') (hf : Monotone f) (w : Window τ) : Window τ' where
  start   := f w.start
  stop    := f w.stop
  ordered := hf w.ordered

-- Windows from `a` to `b`, each of which starts where the one before it stops.
inductive Chain : τ → List (Window τ) → τ → Prop
  | nil {a} : Chain a [] a
  | cons {w ws b} (h : Chain w.stop ws b) : Chain w.start (w :: ws) b

namespace Chain

variable {a b t : τ} {w : Window τ} {ws : List (Window τ)}

theorem le (h : Chain a ws b) : a ≤ b := by
  induction h
  case nil              => exact le_rfl
  case cons w _ _ _ hi  => exact le_trans w.ordered hi

theorem map {f : τ → τ'} (hf : Monotone f) (h : Chain a ws b) :
    Chain (f a) (ws.map (Window.map f hf)) (f b) := by
  induction h
  case nil              => exact .nil
  case cons w _ _ _ hi  => exact .cons (w := w.map f hf) hi

-- Nothing is contained in a window outside of the whole chain.
theorem within (h : Chain a ws b) (hm : w ∈ ws) (ht : w.Contains t) : a ≤ t ∧ t < b := by
  induction h
  case nil => cases hm
  case cons v _ _ hc hi =>
    cases hm
    case head    => exact ⟨ht.left, lt_of_lt_of_le ht.right hc.le⟩
    case tail hm => exact ⟨le_trans v.ordered (hi hm).left, (hi hm).right⟩

theorem existsUnique (h : Chain a ws b) (ha : a ≤ t) (hb : t < b) :
    ∃! i : Fin ws.length, ws[i].Contains t := by
  induction h
  case nil => exact absurd ha (not_le.mpr hb)
  case cons w ws _ hc hi =>
    by_cases ht : t < w.stop
    case pos =>
      refine ⟨⟨0, Nat.succ_pos _⟩, ⟨ha, ht⟩, fun i => Fin.cases (fun _ => rfl) (fun i hi => ?_) i⟩
      exact absurd ht <| not_lt.mpr (hc.within (List.getElem_mem _) hi).left
    case neg =>
      obtain ⟨i, hi, hu⟩ := hi (not_lt.mp ht) hb
      refine ⟨i.succ, hi, fun j => Fin.cases (fun hj => ?_) (fun j hj => ?_) j⟩
      · exact absurd hj.right ht
      · exact congrArg Fin.succ <| hu j hj

variable {ρ : Type} {key : ρ → τ} {q : ρ → Nat} {p : ρ → Prop} [DecidablePred p] {rows : List ρ}

-- The sums over the windows add up to the sum over the whole chain.
theorem total (h : Chain a ws b) :
    (ws.map fun w => Rows.total q (fun r => p r ∧ w.Contains (key r)) rows).sum =
      Rows.total q (fun r => p r ∧ a ≤ key r ∧ key r < b) rows := by
  induction h
  case nil a =>
    refine (Rows.total_eq_zero fun r _ hr => ?_).symm
    exact absurd hr.right.left <| not_le.mpr hr.right.right
  case cons w ws b hc hi =>
    have hd : ∀ r ∈ rows, p r ∧ w.Contains (key r) → ¬(p r ∧ w.stop ≤ key r ∧ key r < b) :=
      fun r _ hr hr' => absurd hr.right.right <| not_lt.mpr hr'.right.left
    rw [List.map_cons, List.sum_cons, hi, ← Rows.total_or hd]
    refine Rows.total_congr fun r _ => ?_
    constructor
    case mp =>
      rintro (⟨hp, hw, hw'⟩ | ⟨hp, hw, hw'⟩)
      · exact ⟨hp, hw, lt_of_lt_of_le hw' hc.le⟩
      · exact ⟨hp, le_trans w.ordered hw, hw'⟩
    case mpr =>
      rintro ⟨hp, hw, hw'⟩
      by_cases ht : key r < w.stop
      case pos => exact .inl ⟨hp, hw, ht⟩
      case neg => exact .inr ⟨hp, not_lt.mp ht, hw'⟩

end Chain

end Window
