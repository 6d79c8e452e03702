import Mathlib.Data.List.Basic

-- Calls which are served one after another on a state.
namespace Calls

variable {δ κ β : Type} {serve : δ → κ → β × δ}

-- The calls of a run with their answers.
def log (serve : δ → κ → β × δ) : δ → List κ → List (κ × β)
  | _, []      => []
  | d, c :: cs => (c, (serve d c).1) :: log serve (serve d c).2 cs

-- The state after a run.
def after (serve : δ → κ → β × δ) : δ → List κ → δ
  | d, []      => d
  | d, c :: cs => after serve (serve d c).2 cs

-- `Drops p l l'` means that `l'` is `l` without some of the entries that meet `p`.
inductive Drops {ε : Type} (p : ε → Prop) : List ε → List ε → Prop
  | nil : Drops p [] []
  | keep {e l l'} : Drops p l l' → Drops p (e :: l) (e :: l')
  | drop {e l l'} : p e → Drops p l l' → Drops p (e :: l) l'

-- Calls which leave the state alone can be left out of a run, without any change to the answers of
-- the other calls or to the state after it.
theorem log_drops {p : κ × β → Prop} (hp : ∀ d c, p (c, (serve d c).1) → (serve d c).2 = d)
    {d : δ} {cs : List κ} {kept : List (κ × β)} (h : Drops p (log serve d cs) kept) :
    log serve d (kept.map (·.1)) = kept ∧
      after serve d (kept.map (·.1)) = after serve d cs := by
  induction cs generalizing d kept
  case nil => cases h; exact ⟨rfl, rfl⟩
  case cons c cs hi =>
    cases h
    case keep h =>
      obtain ⟨hl, ha⟩ := hi h
      exact ⟨congrArg _ hl, ha⟩
    case drop hc h =>
      obtain ⟨hl, ha⟩ := hi h
      rw [hp d c hc] at hl ha
      exact ⟨hl, ha.trans <| by rw [after, hp d c hc]⟩

end Calls
