import Mathlib.Logic.Hydra
import BillingEngine.Library.Progress

-- Without new sessions, a run of the steps of the code comes to its end.
namespace Sessions

variable {τ δ σ α ρ ω ε : Type}

-- The local state of a session descends with each ordinary step that the session takes.
structure Program.Descends (P : Program τ δ σ α ρ ω ε) (ordinary : α → Prop)
    (r : σ → σ → Prop) : Prop where
  wf   : WellFounded r
  next : ∀ {db t l a l' e}, ordinary a → P.next db t l a = some (l', e) → r l' l

def Label.Ordinary (ordinary : α → Prop) : Label τ σ α ε → Prop
  | act _ a => ordinary a
  | _       => False

-- All sessions that have been started are in `F`.
def State.Within (s : State τ δ σ ρ) (F : Finset τ) : Prop :=
  ∀ t l, s.session t = some l → t ∈ F

-- The lock table is empty if no session holds anything.
theorem State.Agrees.free {holds : σ → ρ → Prop} {s : State τ δ σ ρ} {x : ρ} (ha : s.Agrees holds)
    (hs : ∀ {t l}, s.session t = some l → ¬holds l x) : s.holder x = none := by
  cases hx : s.holder x
  case none   => rfl
  case some t =>
    obtain ⟨l, hl, hh⟩ := ha x t |>.mp hx
    exact absurd hh <| hs hl

variable [DecidableEq τ] [DecidableEq ρ] {P : Program τ δ σ α ρ ω ε} {holds : σ → ρ → Prop}
  {after : ρ → ρ → Prop} {live : σ → Prop} {ordinary : α → Prop} {r : σ → σ → Prop}
  {s s' : State τ δ σ ρ} {F : Finset τ}

-- Some session takes an ordinary step.
def State.Advances (P : Program τ δ σ α ρ ω ε) (ordinary : α → Prop) (s s' : State τ δ σ ρ) :
    Prop :=
  ∃ a, Label.Ordinary ordinary a ∧ P.step s a = some s'

theorem State.Within.step {a : Label τ σ α ε} (hF : s.Within F) (h : P.Steps s a s') :
    s'.Within (F ∪ a.session?.toFinset) := by
  intro t l hl
  by_cases ht : a.session? = some t
  case pos => simp [ht]
  case neg => exact Finset.mem_union_left _ <| hF t l <| (h.session_eq ht).symm.trans hl

theorem State.Within.advances (hF : s.Within F) (h : s.Advances P ordinary s') : s'.Within F := by
  obtain ⟨a, ho, hs⟩ := h
  intro t l hl
  cases Program.step_iff.mp hs
  case start => exact ho.elim
  case env   => exact ho.elim
  case act u _ _ _ _ hu _ _ =>
    by_cases ht : t = u
    case pos => exact ht ▸ hF u _ hu
    case neg => exact hF t l <| by simpa [Program.perform, ht] using hl

-- In every reachable state, only finitely many sessions have been started.
theorem Program.Reach.finite {db : δ} {ok : State τ δ σ ρ → Label τ σ α ε → Prop}
    (h : Transition.Reach P.step ok (.boot db) s) : ∃ F, s.Within F := by
  induction h
  case refl          => exact ⟨∅, by simp [State.Within, State.boot]⟩
  case tail _ hs hi  =>
    obtain ⟨F, hF⟩ := hi
    exact ⟨_, hF.step <| Program.step_iff.mp hs⟩

theorem filterMap_update {f : τ → Option σ} {t : τ} {x : Option σ} {ts : Multiset τ}
    (ht : t ∉ ts) : ts.filterMap (Function.update f t x) = ts.filterMap f := by
  induction ts using Multiset.induction
  case empty => rfl
  case cons u ts hi =>
    obtain ⟨hu, ht⟩ := not_or.mp <| mt Multiset.mem_cons.mpr ht
    have hu : Function.update f t x u = f u := Function.update_of_ne (Ne.symm hu) ..
    cases hf : f u
    case none   => rw [Multiset.filterMap_cons_none _ _ hf,
                     Multiset.filterMap_cons_none _ _ (hu.trans hf), hi ht]
    case some b => rw [Multiset.filterMap_cons_some _ _ _ hf,
                     Multiset.filterMap_cons_some _ _ _ (hu.trans hf), hi ht]

namespace Program.Descends

-- One of the local states gets smaller, and the others stay as they are.
theorem cutExpand (hd : P.Descends ordinary r) (hF : s.Within F) (h : s.Advances P ordinary s') :
    Relation.CutExpand r (F.val.filterMap s'.session) (F.val.filterMap s.session) := by
  obtain ⟨a, ho, hs⟩ := h
  cases Program.step_iff.mp hs
  case start => exact ho.elim
  case env   => exact ho.elim
  case act t i l l' e hl hn _ =>
    obtain ⟨rest, hrest⟩ := Multiset.exists_cons_of_mem <| Finset.mem_val.mpr <| hF t l hl
    have ht : t ∉ rest := Multiset.nodup_cons.mp (hrest ▸ F.nodup) |>.left
    have hl' : (P.perform s t l' e).session t = some l' := Function.update_self ..
    rw [hrest, Multiset.filterMap_cons_some _ _ _ hl, Multiset.filterMap_cons_some _ _ _ hl',
      Program.perform, filterMap_update ht, ← Multiset.singleton_add, ← Multiset.singleton_add]
    exact Relation.cutExpand_single_add (hd.next ho hn) _

-- There is no infinite run of ordinary steps.
theorem acc (hd : P.Descends ordinary r) (hF : s.Within F) :
    Acc (fun s' s => s.Advances P ordinary s') s := by
  have hw := hd.wf.cutExpand.apply (F.val.filterMap s.session)
  generalize hm : F.val.filterMap s.session = m at hw
  induction hw generalizing s
  case intro hi =>
    subst hm
    exact ⟨_, fun s' h => hi _ (hd.cutExpand hF h) (hF.advances h) rfl⟩

end Program.Descends

-- A run that does not go on has finished all of its sessions.
theorem State.Ordered.stuck (ho : s.Ordered P holds after live ordinary)
    (ha : s.Agrees holds) (hs : ¬∃ s', s.Advances P ordinary s') {t l} (hl : s.session t = some l) :
    ¬live l := by
  intro hlive
  obtain ⟨t', _, a, s', _, _, hord, hstep⟩ := ho.progresses ha hl hlive
  exact hs ⟨s', .act t' a, hord, hstep⟩

-- Going on as long as possible leads to the end of a run.
theorem State.exists_stuck (h : Acc (fun s' s => s.Advances P ordinary s') s) :
    ∃ s', Transition.Reach P.step (fun _ a => a.Ordinary ordinary) s s' ∧
      ¬∃ s'', s'.Advances P ordinary s'' := by
  induction h
  case intro s _ hi =>
    by_cases hs : ∃ s', s.Advances P ordinary s'
    case neg => exact ⟨s, .refl, hs⟩
    case pos =>
      obtain ⟨s₁, a, ha, hstep⟩ := hs
      obtain ⟨s', hr, hstuck⟩ := hi s₁ ⟨a, ha, hstep⟩
      exact ⟨s', .trans (.single ha hstep) hr, hstuck⟩

end Sessions
