import Mathlib.Data.List.Basic
import BillingEngine.Library.Calls

-- Runs which differ in the order of calls that do not depend on each other.
namespace Traces

open Classical

variable {κ : Type} {dep : κ → κ → Prop} {cs cs' cs'' : List κ} {a b c : κ}

-- One run can be turned into the other by exchanging neighbours.
inductive Swaps (dep : κ → κ → Prop) : List κ → List κ → Prop
  | nil : Swaps dep [] []
  | cons {c : κ} {cs cs' : List κ} : Swaps dep cs cs' → Swaps dep (c :: cs) (c :: cs')
  | swap {a b : κ} {cs : List κ} : ¬dep a b → Swaps dep (a :: b :: cs) (b :: a :: cs)
  | trans {cs cs' cs'' : List κ} : Swaps dep cs cs' → Swaps dep cs' cs'' → Swaps dep cs cs''

-- The calls `a` and `b` of a run, in their order.
noncomputable def project (a b : κ) (cs : List κ) : List κ :=
  cs.filter fun c => c = a ∨ c = b

-- Calls that depend on each other are made in the same order, and equally often.
def SameOrder (dep : κ → κ → Prop) (cs cs' : List κ) : Prop :=
  ∀ a b, dep a b → project a b cs = project a b cs'

theorem project_cons_pos (h : c = a ∨ c = b) : project a b (c :: cs) = c :: project a b cs :=
  List.filter_cons_of_pos <| decide_eq_true h

theorem project_cons_neg (h : ¬(c = a ∨ c = b)) : project a b (c :: cs) = project a b cs :=
  List.filter_cons_of_neg <| by simpa using h

theorem project_append : project a b (cs ++ cs') = project a b cs ++ project a b cs' :=
  List.filter_append ..

theorem project_eq_nil (ha : a ∉ cs) (hb : b ∉ cs) : project a b cs = [] := by
  refine List.filter_eq_nil_iff.mpr fun c hc h => ?_
  obtain rfl | rfl := of_decide_eq_true h
  · exact ha hc
  · exact hb hc

theorem mem_project : c ∈ project a b cs ↔ c ∈ cs ∧ (c = a ∨ c = b) := by
  simp [project]

namespace Swaps

theorem refl : (cs : List κ) → Swaps dep cs cs
  | []      => nil
  | _ :: cs => cons <| refl cs

theorem symm (hs : ∀ {a b}, dep a b → dep b a) (h : Swaps dep cs cs') : Swaps dep cs' cs := by
  induction h
  case nil             => exact nil
  case cons hi         => exact cons hi
  case swap hn         => exact swap fun hd => hn <| hs hd
  case trans hi₁ hi₂   => exact trans hi₂ hi₁

-- A call which does not depend on those before it can be made first.
theorem move_front (h : ∀ c ∈ cs, ¬dep c a) : Swaps dep (cs ++ a :: cs') (a :: (cs ++ cs')) := by
  induction cs
  case nil          => exact refl _
  case cons c cs hi =>
    have ⟨hc, h⟩ := List.forall_mem_cons.mp h
    exact trans (cons <| hi h) (swap hc)

theorem sameOrder (hs : ∀ {a b}, dep a b → dep b a) (h : Swaps dep cs cs') :
    SameOrder dep cs cs' := by
  intro x y hd
  induction h
  case nil        => rfl
  case trans h h' => exact h.trans h'
  case cons c _ _ _ hi =>
    by_cases hc : c = x ∨ c = y
    case pos => rw [project_cons_pos hc, project_cons_pos hc, hi]
    case neg => rw [project_cons_neg hc, project_cons_neg hc, hi]
  case swap a b _ hn =>
    by_cases ha : a = x ∨ a = y <;> by_cases hb : b = x ∨ b = y
    case pos =>
      -- Both of them are the same call, as different ones depend on each other.
      have hab : a = b := by
        rcases ha with rfl | rfl <;> rcases hb with rfl | rfl
        · rfl
        · exact absurd hd hn
        · exact absurd (hs hd) hn
        · rfl
      rw [hab]
    all_goals simp only [project, List.filter_cons, ha, hb, decide_true, decide_false, if_true,
      Bool.false_eq_true, if_false]

end Swaps

namespace SameOrder

theorem mem (hr : ∀ a, dep a a) (h : SameOrder dep cs cs') (hm : c ∈ cs) : c ∈ cs' := by
  have hp : c ∈ project c c cs := mem_project.mpr ⟨hm, .inl rfl⟩
  rw [h c c <| hr c] at hp
  exact mem_project.mp hp |>.left

-- The calls before the first `a` in the other run do not depend on it.
theorem independent (hs : ∀ {a b}, dep a b → dep b a) (ha : a ∉ cs')
    (h : SameOrder dep (a :: cs) (cs' ++ a :: cs'')) : ∀ c ∈ cs', ¬dep c a := by
  intro c hc hd
  have hp := h a c <| hs hd
  rw [project_cons_pos (.inl rfl), project_append] at hp
  have hm : c ∈ project a c cs' := mem_project.mpr ⟨hc, .inr rfl⟩
  cases hl : project a c cs'
  case nil => simp [hl] at hm
  case cons c' _ =>
    have hm : c' ∈ project a c cs' := hl ▸ List.mem_cons_self
    rw [hl] at hp
    have he : a = c' := List.cons.inj hp |>.left
    exact ha <| he ▸ (mem_project.mp hm).left

theorem tail (hs : ∀ {a b}, dep a b → dep b a) (ha : a ∉ cs')
    (h : SameOrder dep (a :: cs) (cs' ++ a :: cs'')) : SameOrder dep cs (cs' ++ cs'') := by
  intro x y hd
  have hp := h x y hd
  rw [project_append] at hp ⊢
  by_cases hx : a = x ∨ a = y
  case neg => rwa [project_cons_neg hx, project_cons_neg hx] at hp
  case pos =>
    have hi := h.independent hs ha
    have hn : project x y cs' = [] := by
      rcases hx with rfl | rfl
      · exact project_eq_nil ha fun hy => hi _ hy <| hs hd
      · exact project_eq_nil (fun hx => hi _ hx hd) ha
    rw [hn, List.nil_append, project_cons_pos hx, project_cons_pos hx] at hp
    rw [hn, List.nil_append]
    exact List.cons.inj hp |>.right

theorem swaps (hr : ∀ a, dep a a) (hs : ∀ {a b}, dep a b → dep b a) (h : SameOrder dep cs cs') :
    Swaps dep cs cs' := by
  induction cs generalizing cs'
  case nil =>
    cases cs'
    case nil      => exact .nil
    case cons c _ =>
      have hp := h c c <| hr c
      rw [project_cons_pos (.inl rfl)] at hp
      cases hp
  case cons a cs hi =>
    obtain ⟨xs, ys, rfl, ha⟩ := List.eq_append_cons_of_mem <| h.mem hr List.mem_cons_self
    have hfront : Swaps dep (xs ++ a :: ys) (a :: (xs ++ ys)) :=
      Swaps.move_front <| h.independent hs ha
    exact .trans (.cons <| hi <| h.tail hs ha) <| hfront.symm hs

end SameOrder

section Calls

open Calls

variable {δ β : Type} {serve : δ → κ → β × δ} {inv : δ → Prop} {same : δ → δ → Prop} {d d' : δ}

-- Independent calls do not see each other, and in either order they lead to the same state.
structure Commuting (serve : δ → κ → β × δ) (dep : κ → κ → Prop) (inv : δ → Prop)
    (same : δ → δ → Prop) : Prop where
  refl   : ∀ d, same d d
  trans  : ∀ {d d' d''}, same d d' → same d' d'' → same d d''
  keeps  : ∀ {d}, inv d → ∀ c, inv (serve d c).2
  congr  : ∀ {d d'}, same d d' → ∀ c,
    (serve d c).1 = (serve d' c).1 ∧ same (serve d c).2 (serve d' c).2
  answer : ∀ {d a b}, inv d → ¬dep a b → (serve (serve d a).2 b).1 = (serve d b).1
  state  : ∀ {d a b}, inv d → ¬dep a b →
    same (serve (serve d a).2 b).2 (serve (serve d b).2 a).2

namespace Commuting

theorem log_congr (hc : Commuting serve dep inv same) (h : same d d') (cs : List κ) :
    log serve d cs = log serve d' cs ∧ same (after serve d cs) (after serve d' cs) := by
  induction cs generalizing d d'
  case nil          => exact ⟨rfl, h⟩
  case cons c cs hi =>
    have ⟨ha, hs⟩ := hc.congr h c
    have ⟨hl, hr⟩ := hi hs
    exact ⟨by rw [log, log, ha, hl], hr⟩

theorem log_swaps (hc : Commuting serve dep inv same) (hs : ∀ {a b}, dep a b → dep b a)
    (h : Swaps dep cs cs') (hi : inv d) :
    (log serve d cs).Perm (log serve d cs') ∧ same (after serve d cs) (after serve d cs') := by
  induction h generalizing d
  case nil => exact ⟨.nil, hc.refl d⟩
  case cons c _ _ _ ih =>
    have ⟨hl, hr⟩ := ih <| hc.keeps hi c
    exact ⟨hl.cons _, hr⟩
  case trans ih₁ ih₂ =>
    have ⟨hl₁, hr₁⟩ := ih₁ hi
    have ⟨hl₂, hr₂⟩ := ih₂ hi
    exact ⟨hl₁.trans hl₂, hc.trans hr₁ hr₂⟩
  case swap a b cs hn =>
    have ⟨hl, hr⟩ := hc.log_congr (hc.state hi hn) cs
    have hb := hc.answer hi hn
    have ha := hc.answer hi fun hd => hn <| hs hd
    refine ⟨?_, hr⟩
    rw [log, log, log, log, hb, ha, hl]
    exact .swap ..

-- The order of independent calls makes no difference.
theorem log_sameOrder (hc : Commuting serve dep inv same) (hr : ∀ a, dep a a)
    (hs : ∀ {a b}, dep a b → dep b a) (h : SameOrder dep cs cs') (hi : inv d) :
    (log serve d cs).Perm (log serve d cs') ∧ same (after serve d cs) (after serve d cs') :=
  hc.log_swaps hs (h.swaps hr hs) hi

end Commuting

end Calls

end Traces
