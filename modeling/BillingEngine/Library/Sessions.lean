import Mathlib.Logic.Function.Basic
import BillingEngine.Library.Transition

open Function

-- Database sessions under READ COMMITTED: each statement of a session reads what is committed when
-- the statement runs, writes become visible to others at commit only, and resources (rows, unique
-- keys) are locked exclusively until the session commits or rolls back.
namespace Sessions

variable {τ δ σ α ρ ω ε : Type}

-- What a step of a session asks of the store, besides reading the committed data.
inductive Effect (ρ ω : Type)
  | stay
  | acquire (x : ρ) -- Wait until no other session holds `x`, and take it.
  | rollback
  | commit (w : ω)

-- The code run by the sessions. The type `σ` holds the program counter and the local variables of a
-- session, and `α` the inputs of a step which the code does not determine, such as clock readings.
structure Program (τ δ σ α ρ ω ε : Type) where
  initial : τ → σ → Bool
  next    : δ → τ → σ → α → Option (σ × Effect ρ ω)
  apply   : ω → δ → δ
  env     : ε → δ → Option δ

@[ext]
structure State (τ δ σ ρ : Type) where
  db      : δ
  holder  : ρ → Option τ
  session : τ → Option σ

inductive Label (τ σ α ε : Type)
  | start (t : τ) (l : σ)
  | act (t : τ) (a : α)
  | env (e : ε)

-- The session that a label belongs to.
def Label.session? : Label τ σ α ε → Option τ
  | start t _ | act t _ => t
  | env _               => none

namespace State

def boot (db : δ) : State τ δ σ ρ where
  db        := db
  holder _  := none
  session _ := none

def Free (s : State τ δ σ ρ) (t : τ) (x : ρ) : Prop :=
  s.holder x = none ∨ s.holder x = some t

instance [DecidableEq τ] {s : State τ δ σ ρ} : Decidable (s.Free t x) :=
  inferInstanceAs <| Decidable (_ ∨ _)

def Grants (s : State τ δ σ ρ) (t : τ) : Effect ρ ω → Prop
  | .acquire x                    => s.Free t x
  | .stay | .rollback | .commit _ => True

instance [DecidableEq τ] {s : State τ δ σ ρ} : (e : Effect ρ ω) → Decidable (s.Grants t e)
  | .acquire _                    => inferInstanceAs <| Decidable (s.Free _ _)
  | .stay | .rollback | .commit _ => .isTrue trivial

end State

def Effect.holders [DecidableEq τ] [DecidableEq ρ] (t : τ) (h : ρ → Option τ) :
    Effect ρ ω → ρ → Option τ
  | stay                 => h
  | acquire x            => update h x (some t)
  | rollback | commit _  => fun x => if h x = some t then none else h x

-- The resources held after an effect by a session which holds `H` before.
def Effect.held (H : ρ → Prop) : Effect ρ ω → ρ → Prop
  | stay                => H
  | acquire y           => fun x => x = y ∨ H x
  | rollback | commit _ => fun _ => False

namespace Program

def write (P : Program τ δ σ α ρ ω ε) : Effect ρ ω → δ → δ
  | .commit w => P.apply w
  | _         => id

variable [DecidableEq τ] [DecidableEq ρ] (P : Program τ δ σ α ρ ω ε)

def perform (s : State τ δ σ ρ) (t : τ) (l : σ) (e : Effect ρ ω) : State τ δ σ ρ where
  db      := P.write e s.db
  holder  := e.holders t s.holder
  session := update s.session t (some l)

def step (s : State τ δ σ ρ) : Label τ σ α ε → Option (State τ δ σ ρ)
  | .start t l =>
    if (s.session t).isNone && P.initial t l then
      some { s with session := update s.session t (some l) }
    else
      none
  | .act t a => do
    let l ← s.session t
    let (l, e) ← P.next s.db t l a
    if s.Grants t e then some (P.perform s t l e) else none
  | .env e => do
    let db ← P.env e s.db
    return { s with db }

-- The steps of a program, case by case.
inductive Steps (s : State τ δ σ ρ) : Label τ σ α ε → State τ δ σ ρ → Prop
  | start {t l} (idle : s.session t = none) (initial : P.initial t l) :
    Steps s (.start t l) { s with session := update s.session t (some l) }
  | act {t a l l' e} (session : s.session t = some l) (next : P.next s.db t l a = some (l', e))
    (grants : s.Grants t e) : Steps s (.act t a) (P.perform s t l' e)
  | env {e db} (env : P.env e s.db = some db) : Steps s (.env e) { s with db }

abbrev Reach : State τ δ σ ρ → State τ δ σ ρ → Prop :=
  Transition.Reach P.step Transition.always

variable {P} {s s' : State τ δ σ ρ} {a : Label τ σ α ε}

theorem step_iff : P.step s a = some s' ↔ P.Steps s a s' where
  mp h := by
    cases a
    case start t l =>
      simp only [step, Bool.and_eq_true, Option.isNone_iff_eq_none] at h
      split at h
      · cases h; exact .start ‹_ ∧ _›.left ‹_ ∧ _›.right
      · contradiction
    case act t a =>
      simp only [step, Option.bind_eq_bind, Option.bind_eq_some_iff] at h
      have ⟨l, hl, ⟨l', e⟩, hn, h⟩ := h
      split at h
      · cases h; exact .act hl hn ‹_›
      · contradiction
    case env e =>
      simp only [step, Option.bind_eq_bind, Option.bind_eq_some_iff] at h
      have ⟨db, hd, h⟩ := h
      cases h
      exact .env hd
  mpr
    | .start hn hi   => by simp [step, hn, hi]
    | .act hl hn hg  => by simp [step, hl, hn, hg]
    | .env he        => by simp [step, he]

-- A session moves by its own steps only.
theorem Steps.session_eq (h : P.Steps s a s') (ht : a.session? ≠ some t) :
    s'.session t = s.session t := by
  cases h <;> simp only [Label.session?, ne_eq, Option.some.injEq] at ht
  case env => rfl
  all_goals exact update_of_ne (Ne.symm ht) ..

-- How a session has come to where it is after a step.
theorem Steps.session_cases {t : τ} {l' : σ} (h : P.Steps s a s') (hl : s'.session t = some l') :
    (a.session? ≠ some t ∧ s.session t = some l') ∨ (P.initial t l' ∧ s'.db = s.db) ∨
    ∃ i l e, a = .act t i ∧ s.session t = some l ∧ P.next s.db t l i = some (l', e) ∧
      s'.db = P.write e s.db := by
  by_cases ht : a.session? = some t
  case neg => exact .inl ⟨ht, (h.session_eq ht).symm.trans hl⟩
  case pos =>
    right
    cases h <;> cases ht
    case start _ hi =>
      simp only [update_self, Option.some.injEq] at hl
      exact .inl ⟨hl ▸ hi, rfl⟩
    case act hs hn _ =>
      simp only [perform, update_self, Option.some.injEq] at hl
      exact .inr ⟨_, _, _, rfl, hs, hl ▸ hn, rfl⟩

-- The rule for invariants of the sessions, which relate them to the committed data.
theorem session_reach {ok : State τ δ σ ρ → Label τ σ α ε → Prop} {I : δ → τ → σ → Prop}
    {s₀ s : State τ δ σ ρ} (h : Transition.Reach P.step ok s₀ s)
    (init : ∀ {t l}, s₀.session t = some l → I s₀.db t l)
    (starts : ∀ {db t l}, P.initial t l → I db t l)
    (acts : ∀ {s s' : State τ δ σ ρ} {t l i l' e}, Transition.Reach P.step ok s₀ s →
      s.session t = some l → P.next s.db t l i = some (l', e) → s'.db = P.write e s.db →
      ok s (.act t i) → I s.db t l → I s'.db t l')
    (others : ∀ {s s' : State τ δ σ ρ} {a t l}, Transition.Reach P.step ok s₀ s → P.Steps s a s' →
      ok s a → a.session? ≠ some t → s.session t = some l → I s.db t l → I s'.db t l) :
    ∀ {t l}, s.session t = some l → I s.db t l := by
  induction h
  case refl => exact init
  case tail s s' a h hok hs inv =>
    intro t l hl
    rcases (step_iff.mp hs).session_cases hl with ⟨ht, hl⟩ | ⟨hi, _⟩ | ⟨i, l₀, e, rfl, hl, hn, hd⟩
    · exact others h (step_iff.mp hs) hok ht hl (inv hl)
    · exact starts hi
    · exact acts h hl hn hd hok (inv hl)

end Program

-- `holds` names the resources that a session holds by its local state.
structure Program.Tracks (P : Program τ δ σ α ρ ω ε) (holds : σ → ρ → Prop) : Prop where
  initial : ∀ {t l x}, P.initial t l → ¬holds l x
  next    : ∀ {db t l a l' e x}, P.next db t l a = some (l', e) → (holds l' x ↔ e.held (holds l) x)

-- The lock table agrees with the local states of the sessions.
def State.Agrees (holds : σ → ρ → Prop) (s : State τ δ σ ρ) : Prop :=
  ∀ x t, s.holder x = some t ↔ ∃ l, s.session t = some l ∧ holds l x

namespace State.Agrees

variable {holds : σ → ρ → Prop} {s s' : State τ δ σ ρ} {t t' : τ} {l l' : σ} {x : ρ}

theorem boot {db : δ} : (State.boot db : State τ δ σ ρ).Agrees holds := by
  simp [Agrees, State.boot]

theorem holder (h : s.Agrees holds) (hs : s.session t = some l) (hl : holds l x) :
    s.holder x = some t :=
  h x t |>.mpr ⟨l, hs, hl⟩

-- Mutual exclusion: a resource is held by at most one session.
theorem unique (h : s.Agrees holds) (hs : s.session t = some l) (hs' : s.session t' = some l')
    (hl : holds l x) (hl' : holds l' x) : t = t' :=
  Option.some.inj <| (h.holder hs hl).symm.trans (h.holder hs' hl')

variable [DecidableEq τ] [DecidableEq ρ] {P : Program τ δ σ α ρ ω ε}

theorem step {a : Label τ σ α ε} (tr : P.Tracks holds) (h : s.Agrees holds)
    (hs : P.Steps s a s') : s'.Agrees holds := by
  intro x u
  cases hs
  case env => exact h x u
  case start t l hn hi =>
    by_cases hu : u = t
    case neg => simpa [update_of_ne hu] using h x u
    case pos => subst hu; simpa [tr.initial hi, hn] using h x u
  case act t a l l' e hl hn hg =>
    have hx := h x u
    by_cases hu : u = t
    case pos =>
      subst hu
      have ht : holds l' x ↔ e.held (holds l) x := tr.next hn
      simp only [hl, Option.some.injEq, exists_eq_left'] at hx
      cases e <;> simp only [Program.perform, Effect.holders, Effect.held, update_self,
        Option.some.injEq, exists_eq_left'] at ht ⊢
      case stay => exact hx.trans ht.symm
      case acquire y =>
        by_cases hy : x = y
        case pos => subst hy; simp [ht]
        case neg => simp [hy, hx, ht]
      all_goals split <;> simp_all
    case neg =>
      rw [show (P.perform s t l' e).session u = s.session u from update_of_ne hu ..] at *
      rw [← hx]
      cases e <;> simp only [Program.perform, Effect.holders]
      case acquire y =>
        by_cases hy : x = y
        case neg => rw [update_of_ne hy]
        case pos =>
          subst hy
          cases hg <;> simp_all [Ne.symm hu]
      all_goals split <;> simp_all [Ne.symm hu]

theorem reach {db : δ} (tr : P.Tracks holds) (h : P.Reach (.boot db) s) : s.Agrees holds :=
  h.invariant boot fun hi _ hs => hi.step tr (Program.step_iff.mp hs)

end State.Agrees

-- Taking sessions away from a state, and what they have written.

section Hide

variable {hidden : τ → Prop} [DecidablePred hidden] {view : δ → δ} {s s' : State τ δ σ ρ}

def State.hide (hidden : τ → Prop) [DecidablePred hidden] (view : δ → δ) (s : State τ δ σ ρ) :
    State τ δ σ ρ where
  db        := view s.db
  holder x  := (s.holder x).filter (¬hidden ·)
  session t := if hidden t then none else s.session t

def Label.Of (hidden : τ → Prop) (l : Label τ σ α ε) : Prop :=
  ∃ t ∈ l.session?, hidden t

instance {l : Label τ σ α ε} : Decidable (l.Of hidden) :=
  inferInstanceAs <| Decidable (∃ t ∈ l.session?, hidden t)

theorem State.Free.hide {t : τ} {x : ρ} (hf : s.Free t x) (ht : ¬hidden t) :
    (s.hide hidden view).Free t x := by
  cases hf
  case inl hf => exact .inl <| by simp [State.hide, hf]
  case inr hf => exact .inr <| by simp [State.hide, hf, ht]

variable [DecidableEq τ] [DecidableEq ρ] {P : Program τ δ σ α ρ ω ε} {t : τ} {e : Effect ρ ω}
  {a : Label τ σ α ε}

theorem Effect.holders_hidden (hg : s.Grants t e) (ht : hidden t) (x : ρ) :
    (e.holders t s.holder x).filter (¬hidden ·) = (s.holder x).filter (¬hidden ·) := by
  cases e <;> simp only [holders]
  case acquire y =>
    by_cases hx : x = y
    case neg => rw [update_of_ne hx]
    case pos =>
      subst hx
      rcases hg with hg | hg <;> simp [Option.filter, hg, ht]
  all_goals
    by_cases hx : s.holder x = some t
    case pos => simp [Option.filter, hx, ht]
    case neg => rw [if_neg hx]

theorem Effect.holders_visible (ht : ¬hidden t) (x : ρ) :
    (e.holders t s.holder x).filter (¬hidden ·) =
      e.holders t (fun x => (s.holder x).filter (¬hidden ·)) x := by
  cases e <;> simp only [holders]
  case acquire y =>
    by_cases hx : x = y
    case neg => rw [update_of_ne hx, update_of_ne hx]
    case pos => simp [Option.filter, hx, ht]
  all_goals
    cases hx : s.holder x
    case none   => simp [Option.filter]
    case some u =>
      by_cases hu : u = t
      case pos => simp [Option.filter, hu, ht]
      case neg => by_cases hh : hidden u <;> simp [Option.filter, hu, hh]

theorem Program.Steps.hide_hidden (h : P.Steps s a s') (ha : a.Of hidden)
    (hv : view s'.db = view s.db) : s'.hide hidden view = s.hide hidden view := by
  obtain ⟨t, ht, hh⟩ := ha
  have hsession u : (if hidden u then none else s'.session u) =
      if hidden u then none else s.session u := by
    by_cases hu : u = t
    case pos => simp [hu, hh]
    case neg => rw [h.session_eq fun he => hu <| Option.some.inj <| he.symm.trans ht]
  have hholder x : (s'.holder x).filter (¬hidden ·) = (s.holder x).filter (¬hidden ·) := by
    cases h
    case start => rfl
    case env   => rfl
    case act   => cases ht; exact Effect.holders_hidden ‹_› hh x
  simp only [State.hide, hv, hholder, hsession]

theorem Program.Steps.hide_visible (h : P.Steps s a s') (ha : ¬a.Of hidden)
    (act : ∀ {t i l l' e}, a = .act t i → s.session t = some l →
      P.next s.db t l i = some (l', e) →
      P.next (view s.db) t l i = some (l', e) ∧ view (P.write e s.db) = P.write e (view s.db))
    (env : ∀ {e}, a = .env e → P.env e (view s.db) = some (view s'.db)) :
    P.step (s.hide hidden view) a = some (s'.hide hidden view) := by
  have hne {t} (ht : a.session? = some t) : ¬hidden t := fun hh => ha ⟨t, ht, hh⟩
  have hupdate {t l} (ht : ¬hidden t) : (fun u => if hidden u then none else
      update s.session t (some l) u) = update (s.hide hidden view).session t (some l) := by
    funext u
    by_cases hu : u = t
    case pos => simp [hu, ht]
    case neg => simp [update_of_ne hu, State.hide]
  cases h
  case start t l idle initial =>
    have ht := hne rfl
    refine (step_iff.mpr <| .start (by simp [State.hide, idle]) initial).trans ?_
    simp only [State.hide, hupdate ht]
  case act t i l l' e session next grants =>
    have ht := hne rfl
    have ⟨hn, hw⟩ := act rfl session next
    refine (step_iff.mpr <| .act (by simpa [State.hide, ht] using session) hn ?_).trans ?_
    · cases e <;> first | exact State.Free.hide grants ht | trivial
    · simp only [State.hide, perform, hw, Effect.holders_visible ht, hupdate ht]
  case env => exact step_iff.mpr <| .env <| env rfl

end Hide
end Sessions
