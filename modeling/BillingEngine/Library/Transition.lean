import Mathlib.Data.List.Basic

namespace Transition

variable {σ α : Type}

-- A system is given by a partial step function: `step s a = none` means that the action `a` can
-- not happen in the state `s`. A run fails as soon as one of its actions can not happen.
def run (step : σ → α → Option σ) : σ → List α → Option σ
  | s, []      => some s
  | s, a :: as => (step s a).bind (run step · as)

-- `Reach step ok s s'` says that `s'` is reached from `s` by steps that all meet the condition `ok`
-- in the state they are taken from.
inductive Reach (step : σ → α → Option σ) (ok : σ → α → Prop) (s : σ) : σ → Prop
  | refl : Reach step ok s s
  | tail {s' s'' a} : Reach step ok s s' → ok s' a → step s' a = some s'' → Reach step ok s s''

-- The same with the actions of the run.
inductive Path (step : σ → α → Option σ) (ok : σ → α → Prop) (s : σ) : List α → σ → Prop
  | nil : Path step ok s [] s
  | snoc {as s' s'' a} : Path step ok s as s' → ok s' a → step s' a = some s'' →
    Path step ok s (as ++ [a]) s''

-- The condition met by every step.
abbrev always : σ → α → Prop :=
  fun _ _ => True

variable {step : σ → α → Option σ} {s s' s'' : σ} {a : α} {as : List α}

@[simp]
theorem run_nil : run step s [] = some s :=
  rfl

theorem run_cons : run step s (a :: as) = (step s a).bind (run step · as) :=
  rfl

theorem run_cons_some :
    run step s (a :: as) = some s'' ↔ ∃ s', step s a = some s' ∧ run step s' as = some s'' := by
  simp [run_cons, Option.bind_eq_some_iff]

theorem run_append_some {bs : List α} :
    run step s (as ++ bs) = some s'' ↔
      ∃ s', run step s as = some s' ∧ run step s' bs = some s'' := by
  induction as generalizing s
  case nil => simp
  case cons a as hi =>
    simp only [List.cons_append, run_cons_some, hi]
    constructor
    case mp  => rintro ⟨s₁, hs, s', hr, hr'⟩; exact ⟨s', ⟨s₁, hs, hr⟩, hr'⟩
    case mpr => rintro ⟨s', ⟨s₁, hs, hr⟩, hr'⟩; exact ⟨s₁, hs, s', hr, hr'⟩

namespace Reach

variable {ok ok' : σ → α → Prop}

theorem trans (h₁ : Reach step ok s s') (h₂ : Reach step ok s' s'') : Reach step ok s s'' := by
  induction h₂
  case refl           => exact h₁
  case tail hok hs hi => exact hi.tail hok hs

theorem single (hok : ok s a) (h : step s a = some s') : Reach step ok s s' :=
  refl.tail hok h

-- The condition may be replaced by one that it implies in the states of its runs.
theorem imp (h : Reach step ok s s') (hok : ∀ {s' a}, Reach step ok s s' → ok s' a → ok' s' a) :
    Reach step ok' s s' := by
  induction h
  case refl            => exact .refl
  case tail h ho hs hi => exact hi.tail (hok h ho) hs

theorem weaken (h : Reach step ok s s') : Reach step always s s' :=
  h.imp fun _ _ => trivial

-- The rule for inductive invariants.
theorem invariant {I : σ → Prop} (h : Reach step ok s s') (init : I s)
    (pres : ∀ {s a s'}, I s → ok s a → step s a = some s' → I s') : I s' := by
  induction h
  case refl           => exact init
  case tail hok hs hi => exact pres hi hok hs

-- The rule for an invariant whose preservation relies on another one.
theorem invariant_of {I J : σ → Prop} (h : Reach step ok s s')
    (base : ∀ {s'}, Reach step ok s s' → J s') (init : I s)
    (pres : ∀ {s a s'}, J s → I s → ok s a → step s a = some s' → I s') : I s' := by
  induction h
  case refl            => exact init
  case tail h hok hs hi => exact pres (base h) hi hok hs

theorem of_run (h : run step s as = some s') : Reach step (fun _ a => a ∈ as) s s' := by
  induction as generalizing s
  case nil => cases h; exact .refl
  case cons a as hi =>
    have ⟨s₁, hs, hr⟩ := run_cons_some.mp h
    have hs : Reach step (fun _ b => b ∈ a :: as) s s₁ := single List.mem_cons_self hs
    exact hs.trans <| (hi hr).imp fun _ hm => List.mem_cons_of_mem _ hm

-- A run all of whose actions meet the condition in every state.
theorem of_run_all (h : run step s as = some s') (hok : ∀ a ∈ as, ∀ s, ok s a) :
    Reach step ok s s' :=
  (of_run h).imp fun _ hm => hok _ hm _

-- A state that a run computes.
theorem get_run (h : (run step s as).isSome) : Reach step always s ((run step s as).get h) :=
  (of_run (Option.some_get h).symm).weaken

end Reach

namespace Path

variable {ok : σ → α → Prop} {bs : List α}

theorem trans (h₁ : Path step ok s as s') (h₂ : Path step ok s' bs s'') :
    Path step ok s (as ++ bs) s'' := by
  induction h₂
  case nil             => rwa [List.append_nil]
  case snoc hok hs hi  => exact List.append_assoc .. ▸ hi.snoc hok hs

theorem single (hok : ok s a) (h : step s a = some s') : Path step ok s [a] s' :=
  nil.snoc hok h

theorem of_run_all (h : run step s as = some s') (hok : ∀ a ∈ as, ∀ s, ok s a) :
    Path step ok s as s' := by
  induction as generalizing s
  case nil => cases h; exact .nil
  case cons a as hi =>
    have ⟨s₁, hs, hr⟩ := run_cons_some.mp h
    have ⟨ha, hok⟩   := List.forall_mem_cons.mp hok
    exact (single (ha s) hs).trans <| hi hr hok

theorem reach (h : Path step ok s as s') : Reach step ok s s' := by
  induction h
  case nil            => exact .refl
  case snoc hok hs hi => exact hi.tail hok hs

-- What holds for the actions of a run is a condition that they all meet.
theorem and_all {p : α → Prop} (h : Path step ok s as s') (hp : ∀ a ∈ as, p a) :
    Path step (fun s a => ok s a ∧ p a) s as s' := by
  induction h
  case nil => exact .nil
  case snoc hok hs hi =>
    have ⟨hp, ha⟩ := List.forall_mem_append.mp hp
    exact (hi hp).snoc ⟨hok, ha _ <| List.mem_singleton_self _⟩ hs

end Path

section Logged

variable {ε : Type} {emit : σ → α → List ε} {t t' : σ × List ε}

-- The system with a log of what its steps emit. The log is a history variable: no step depends on
-- it.
def logged (step : σ → α → Option σ) (emit : σ → α → List ε) (t : σ × List ε) (a : α) :
    Option (σ × List ε) :=
  (step t.1 a).map fun s => (s, t.2 ++ emit t.1 a)

theorem logged_some : logged step emit t a = some t' ↔
    step t.1 a = some t'.1 ∧ t'.2 = t.2 ++ emit t.1 a := by
  simp only [logged, Option.map_eq_some_iff]
  constructor
  case mp  => rintro ⟨s, hs, rfl⟩; exact ⟨hs, rfl⟩
  case mpr => exact fun ⟨hs, hl⟩ => ⟨t'.1, hs, Prod.ext rfl hl.symm⟩

theorem Reach.unlogged {ok : σ × List ε → α → Prop} (h : Reach (logged step emit) ok t t') :
    Reach step always t.1 t'.1 := by
  induction h
  case refl          => exact .refl
  case tail _ hs hi  => exact hi.tail trivial (logged_some.mp hs).left

theorem Path.unlogged {ok : σ → α → Prop} (h : Path (logged step emit) (fun t => ok t.1) t as t') :
    Path step ok t.1 as t'.1 := by
  induction h
  case nil            => exact .nil
  case snoc hok hs hi => exact hi.snoc hok (logged_some.mp hs).left

theorem run_logged (h : run (logged step emit) t as = some t') : run step t.1 as = some t'.1 := by
  induction as generalizing t
  case nil => cases h; rfl
  case cons hi =>
    have ⟨t₁, hs, h⟩ := run_cons_some.mp h
    exact run_cons_some.mpr ⟨t₁.1, (logged_some.mp hs).left, hi h⟩

end Logged

-- Noninterference. If hidden actions do not change the view of a state, and every other action does
-- the same on a view as on the state itself, then the view of a run without its hidden actions is a
-- run. The assumptions may rely on where a step stands in the run from `s` to `s'`.
theorem run_view_all {ok : σ → α → Prop} (view : σ → σ) (hidden : α → Prop)
    [DecidablePred hidden] (hok : ∀ a ∈ as, ∀ s, ok s a)
    (hid : ∀ {s₁ a s₂}, Reach step ok s s₁ → ok s₁ a → step s₁ a = some s₂ → Reach step ok s₂ s' →
      hidden a → view s₂ = view s₁)
    (vis : ∀ {s₁ a s₂}, Reach step ok s s₁ → ok s₁ a → step s₁ a = some s₂ → Reach step ok s₂ s' →
      ¬hidden a → step (view s₁) a = some (view s₂))
    (h : run step s as = some s') :
    run step (view s) (as.filter (¬hidden ·)) = some (view s') := by
  induction as generalizing s
  case nil => cases h; rfl
  case cons a as hi =>
    have ⟨s₁, hs, h⟩ := run_cons_some.mp h
    have ⟨ha, hok⟩   := List.forall_mem_cons.mp hok
    have hr := Reach.of_run_all h hok
    have ht := hi hok (fun h₁ => hid <| .trans (.single (ha s) hs) h₁)
      (fun h₁ => vis <| .trans (.single (ha s) hs) h₁) h
    by_cases hh : hidden a
    case pos => simpa [hh, hid .refl (ha s) hs hr hh] using ht
    case neg => simpa [hh, run_cons, vis .refl (ha s) hs hr hh] using ht

theorem run_view (view : σ → σ) (hidden : α → Prop) [DecidablePred hidden]
    (hid : ∀ {s₁ a s₂}, Reach step always s s₁ → step s₁ a = some s₂ → Reach step always s₂ s' →
      hidden a → view s₂ = view s₁)
    (vis : ∀ {s₁ a s₂}, Reach step always s s₁ → step s₁ a = some s₂ → Reach step always s₂ s' →
      ¬hidden a → step (view s₁) a = some (view s₂))
    (h : run step s as = some s') :
    run step (view s) (as.filter (¬hidden ·)) = some (view s') :=
  run_view_all view hidden (fun _ _ _ => trivial) (fun hr _ => hid hr) (fun hr _ => vis hr) h

end Transition
