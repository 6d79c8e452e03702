import Mathlib.Order.WellFoundedSet
import BillingEngine.Library.Sessions

open Relation

-- Relations without circles.

def Acyclic {ι : Type} (r : ι → ι → Prop) : Prop :=
  ∀ x, ¬TransGen r x x

namespace Acyclic

variable {ι : Type} {r r' : ι → ι → Prop}

theorem mono (h : Acyclic r) (hr : ∀ x y, r' x y → r x y) : Acyclic r' :=
  fun x hx => h x <| TransGen.mono hr _ _ hx

-- A path that uses the new edges from `A` to `c` passes `c` for the last time.
theorem path_extend {A : ι → Prop} {c x y : ι} (hr : ∀ x y, r' x y → r x y ∨ (A x ∧ y = c))
    (h : ReflTransGen r' x y) :
    ReflTransGen r x y ∨ (∃ a, A a ∧ ReflTransGen r x a) ∧ ReflTransGen r c y := by
  induction h using ReflTransGen.head_induction_on
  case refl => exact .inl .refl
  case head hxz _ hi =>
    rcases hr _ _ hxz with hxz | ⟨ha, rfl⟩
    case inl => exact hi.imp (.head hxz) <| .imp_left fun ⟨a, ha, hp⟩ => ⟨a, ha, .head hxz hp⟩
    case inr => exact .inr ⟨⟨_, ha, .refl⟩, hi.elim (·) (·.right)⟩

-- New edges from `A` to `c` close no circle if no path leads back.
theorem extend {A : ι → Prop} {c : ι} (h : Acyclic r)
    (hr : ∀ x y, r' x y → r x y ∨ (A x ∧ y = c)) (hc : ∀ a, A a → ¬ReflTransGen r c a) :
    Acyclic r' := by
  intro x hx
  obtain ⟨y, hxy, hyx⟩ := TransGen.head'_iff.mp hx
  rcases hr _ _ hxy with hxy | ⟨ha, rfl⟩
  case inl =>
    rcases path_extend hr hyx with hyx | ⟨⟨a, ha, hya⟩, hcx⟩
    · exact h x <| .head' hxy hyx
    · exact hc a ha <| hcx.trans <| .head hxy hya
  case inr =>
    rcases path_extend hr hyx with hyx | ⟨⟨a, ha', hya⟩, _⟩
    · exact hc x ha hyx
    · exact hc a ha' hya

-- Without circles, every path through finitely many points ends.
theorem wellFounded {S : Set ι} (h : Acyclic r) (hS : S.Finite)
    (hr : ∀ {x y}, r x y → x ∈ S ∧ y ∈ S) : WellFounded (flip r) := by
  have hirr (x : ι) (hx : TransGen (flip r) x x) : False := h x <| transGen_swap.mp hx
  have hord : IsStrictOrder ι (TransGen (flip r)) :=
    { irrefl := hirr, trans := fun _ _ _ => TransGen.trans }
  have hwf := Set.wellFoundedOn_iff.mp <| hS.wellFoundedOn (r := TransGen (flip r))
  exact Subrelation.wf (fun hxy => ⟨.single hxy, (hr hxy).right, (hr hxy).left⟩) hwf

end Acyclic

-- A bounded rank, and a relation among the points of equal rank.
theorem wellFounded_rank_or {ι : Type} {rank : ι → Nat} {bound : Nat} {r : ι → ι → Prop}
    (hb : ∀ x, rank x ≤ bound) (hr : WellFounded r) (he : ∀ {x y}, r x y → rank x = rank y) :
    WellFounded fun x y => rank y < rank x ∨ r x y := by
  have hwf : WellFounded (Prod.Lex (fun m n : Nat => m < n) r) :=
    (Prod.lex ⟨_, wellFounded_lt⟩ ⟨r, hr⟩).wf
  refine Subrelation.wf (fun {x y} hxy => ?_) <| InvImage.wf (fun x => (bound - rank x, x)) hwf
  have hx := hb x
  rcases hxy with hlt | hxy
  case inl => exact .left _ _ (by omega)
  case inr =>
    simp only [InvImage, he hxy]
    exact .right _ hxy

-- Freedom from deadlocks by an order in which all sessions acquire their resources.
namespace Sessions

variable {τ δ σ α ρ ω ε : Type}

def Effect.Wants (e : Effect ρ ω) (x : ρ) : Prop :=
  e = .acquire x

theorem Effect.held_or_wants {e : Effect ρ ω} {H : ρ → Prop} {x : ρ} (h : e.held H x) :
    H x ∨ e.Wants x := by
  cases e
  case stay              => exact .inl h
  case rollback | commit => exact h.elim
  case acquire           => exact h.symm.imp_right fun he => congrArg _ he.symm

theorem State.not_grants {s : State τ δ σ ρ} {t : τ} {e : Effect ρ ω} (h : ¬s.Grants t e) :
    ∃ x t', e.Wants x ∧ s.holder x = some t' := by
  cases e
  case acquire x =>
    cases hx : s.holder x
    case none    => exact absurd (.inl hx) h
    case some t' => exact ⟨x, t', rfl, hx⟩
  all_goals exact absurd trivial h

-- A session waits for another one.
theorem State.blocked {s : State τ δ σ ρ} {t : τ} {e : Effect ρ ω} (h : ¬s.Grants t e) :
    ∃ x t', t' ≠ t ∧ e.Wants x ∧ s.holder x = some t' := by
  obtain ⟨x, t', hx, hh⟩ := not_grants h
  refine ⟨x, t', ?_, hx, hh⟩
  rintro rfl
  cases hx
  exact h <| .inr hh

-- In the state, every live session has an ordinary step, for which it waits at most for a resource
-- that comes after all those it holds.
structure State.Ordered (P : Program τ δ σ α ρ ω ε) (holds : σ → ρ → Prop) (after : ρ → ρ → Prop)
    (live : σ → Prop) (ordinary : α → Prop) (s : State τ δ σ ρ) : Prop where
  wf    : WellFounded after
  alive : ∀ {l x}, holds l x → live l
  next  : ∀ {t l}, s.session t = some l → live l → ∃ a l' e, ordinary a ∧
            P.next s.db t l a = some (l', e) ∧ ∀ x, e.Wants x → ∀ y, holds l y → after x y

variable [DecidableEq τ] [DecidableEq ρ] {P : Program τ δ σ α ρ ω ε} {holds : σ → ρ → Prop}
  {after : ρ → ρ → Prop} {live : σ → Prop} {ordinary : α → Prop} {s : State τ δ σ ρ}

-- Some live session can take an ordinary step.
def State.Progresses (P : Program τ δ σ α ρ ω ε) (live : σ → Prop) (ordinary : α → Prop)
    (s : State τ δ σ ρ) : Prop :=
  ∃ t l a s', s.session t = some l ∧ live l ∧ ordinary a ∧ P.step s (.act t a) = some s'

namespace State.Ordered

-- A session that is blocked waits for one that holds a later resource.
theorem progresses_or_waits (ho : s.Ordered P holds after live ordinary)
    (ha : s.Agrees holds) {t l} (hs : s.session t = some l) (hl : live l) :
    s.Progresses P live ordinary ∨ ∃ t' l' x, s.session t' = some l' ∧ holds l' x ∧
      ∀ y, holds l y → after x y := by
  obtain ⟨a, l', e, hord, hn, hw⟩ := ho.next hs hl
  by_cases hg : s.Grants t e
  case pos => exact .inl ⟨t, l, a, _, hs, hl, hord, Program.step_iff.mpr <| .act hs hn hg⟩
  case neg =>
    obtain ⟨x, t', hx, hh⟩ := State.not_grants hg
    obtain ⟨l'', hs', hh'⟩ := ha x t' |>.mp hh
    exact .inr ⟨t', l'', x, hs', hh', hw x hx⟩

-- The chain of sessions that wait for each other ends, as their resources go up.
theorem progresses_of_holds (ho : s.Ordered P holds after live ordinary) (ha : s.Agrees holds) {x}
    {t l} (hs : s.session t = some l) (hh : holds l x) : s.Progresses P live ordinary := by
  induction x using ho.wf.induction generalizing t l
  case _ x hi =>
    rcases ho.progresses_or_waits ha hs (ho.alive hh) with h | ⟨_, _, y, hs', hh', hr⟩
    · exact h
    · exact hi y (hr x hh) hs' hh'

theorem progresses (ho : s.Ordered P holds after live ordinary) (ha : s.Agrees holds) {t l}
    (hs : s.session t = some l) (hl : live l) : s.Progresses P live ordinary := by
  rcases ho.progresses_or_waits ha hs hl with h | ⟨_, _, _, hs', hh', _⟩
  · exact h
  · exact ho.progresses_of_holds ha hs' hh'

end State.Ordered
end Sessions
