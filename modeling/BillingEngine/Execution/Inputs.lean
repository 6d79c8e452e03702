import BillingEngine.Execution.Theorems.Step

open Sessions

-- What a session reads that the code does not determine: the order of the rows that tie, and the
-- clock at the check and at the flush.
structure Inputs where
  order     : QuotaEnforcer.OrderBy
  now       : Instant
  timestamp : Instant
  le        : now ≤ timestamp

namespace Inputs

def fixed (order : QuotaEnforcer.OrderBy) (now : Instant) : Inputs where
  order     := order
  now       := now
  timestamp := now
  le        := le_rfl

def Allows (i : Inputs) : Session.Action → Prop
  | .usage (.select order)          => order = i.order
  | .usage (.check now)             => now = i.now
  | .usage (.insertEvent timestamp) => timestamp = i.timestamp
  | .webhook (.handle now)          => now = i.now
  | _                               => True

-- A step of the code under these inputs.
def Performs (i : Inputs) (a : Session.Action) : Prop :=
  a.Ordinary ∧ i.Allows a

end Inputs

-- The session `id` reads `inputs id`.
def Execution.Reads (inputs : Uuid → Inputs) : Execution.Label → Prop
  | .act id a => (inputs id).Allows a
  | _         => True

-- What a session in the given phase may still read, where `C` holds for the inputs that agree with
-- what it has read.

def Usage.Phase.MayRead (C : Inputs → Prop) : Phase → Prop
  | received | reading _ | selecting _ => ∀ i, C i
  | locking .. | checking ..           => ∃ order, ∀ i : Inputs, i.order = order → C i
  | inserting _ _ _ now                =>
    ∃ order, ∀ i : Inputs, i.order = order → i.now = now → C i
  | _ => ∃ i, C i

def Webhook.Phase.MayRead (C : Inputs → Prop) : Phase → Prop
  | received | marked _ => ∀ i, C i
  | _                   => ∃ i, C i

def Session.MayRead (C : Inputs → Prop) : Option Session → Prop
  | none                   => ∀ i, C i
  | some (usage _ phase)   => phase.MayRead C
  | some (webhook _ phase) => phase.MayRead C

variable {db : Database} {C : Inputs → Prop}

theorem Session.MayRead.imp {C' : Inputs → Prop} {session : Option Session}
    (h : Session.MayRead C session) (hi : ∀ i, C i → C' i) : Session.MayRead C' session := by
  rcases session with _ | ⟨_, p⟩ | ⟨_, p⟩ <;> try cases p
  all_goals first
    | exact fun i => hi i <| h i
    | exact Exists.imp (fun _ h i ho => hi i <| h i ho) h
    | exact Exists.imp (fun _ h i ho hn => hi i <| h i ho hn) h
    | exact Exists.imp hi h

theorem Usage.Phase.MayRead.exists {p : Phase} (h : p.MayRead C) : ∃ i, C i := by
  cases p
  case received | reading | selecting => exact ⟨_, h <| .fixed (.stable _) 0⟩
  case locking | checking => exact h.elim fun order h => ⟨_, h (.fixed order 0) rfl⟩
  case inserting now      => exact h.elim fun order h => ⟨_, h (.fixed order now) rfl rfl⟩
  all_goals exact h

theorem Webhook.Phase.MayRead.exists {p : Phase} (h : p.MayRead C) : ∃ i, C i := by
  cases p
  case received | marked => exact ⟨_, h <| .fixed (.stable _) 0⟩
  all_goals exact h

theorem Session.MayRead.exists {session : Option Session} (h : Session.MayRead C session) :
    ∃ i, C i := by
  cases session
  case none => exact ⟨_, h <| .fixed (.stable _) 0⟩
  case some session =>
    cases session
    case usage   => exact Usage.Phase.MayRead.exists h
    case webhook => exact Webhook.Phase.MayRead.exists h

-- A step reads what has not been read before.
theorem Usage.Next.mayRead {id : Uuid} {request : UsageRequest} {p p' : Phase} {a : Action}
    {e : Effect Resource Write} (h : Next db id request p a p' e) (ho : p.MayRead C) :
    p'.MayRead fun i => C i ∧ i.Allows (.usage a) := by
  cases h
  case getTenant   => exact fun i => ⟨ho i, trivial⟩
  case miss        => exact fun i => ⟨ho i, trivial⟩
  case select o    => exact ⟨o, fun i hi => ⟨ho i, hi.symm⟩⟩
  case skip        => exact ho.imp fun _ ho i hi => ⟨ho i hi, trivial⟩
  case lock        => exact ho.imp fun _ ho i hi => ⟨ho i hi, trivial⟩
  case reserve     => exact ho.imp fun _ ho i hi hn => ⟨ho i hi, hn.symm⟩
  case refuse now _ _ => exact ho.elim fun order ho => ⟨.fixed order now, ho _ rfl, rfl⟩
  case overflow hn _ | duplicateEvent hn _ _ | insertEvent hn _ _ =>
    exact ho.elim fun order ho => ⟨⟨order, _, _, hn⟩, ho _ rfl rfl, rfl⟩
  all_goals
    obtain ⟨i, hi⟩ := Phase.MayRead.exists ho
    exact ⟨i, hi, trivial⟩

theorem Webhook.Next.mayRead {event : WebhookEvent} {p p' : Phase} {a : Action}
    {e : Effect Resource Write} (h : Next db event p a p' e) (ho : p.MayRead C) :
    p'.MayRead fun i => C i ∧ i.Allows (.webhook a) := by
  cases h
  case mark   => exact fun i => ⟨ho i, trivial⟩
  case fail => exact ⟨.fixed (.stable _) _, ho _, rfl⟩
  case load   => exact ⟨.fixed (.stable _) _, ho _, rfl⟩
  case handle => exact ⟨.fixed (.stable _) _, ho _, rfl⟩
  all_goals
    obtain ⟨i, hi⟩ := Phase.MayRead.exists ho
    exact ⟨i, hi, trivial⟩

namespace Execution

variable {s s' : State} {l : Label} {id : Uuid}

theorem Step.mayRead (h : Step s l s') (hi : Session.MayRead C (s.session id)) :
    Session.MayRead (fun i => C i ∧ ∀ a, l = .act id a → i.Allows a) (s'.session id) := by
  by_cases ht : l.session? = some id
  case neg =>
    rw [h.session_eq ht]
    refine hi.imp fun i hi => ⟨hi, ?_⟩
    rintro a rfl
    exact absurd rfl ht
  case pos =>
    cases h <;> cases ht
    case receive hs =>
      rw [hs] at hi
      simp only [Function.update_self]
      exact fun i => ⟨hi i, fun _ h => by cases h⟩
    case deliver hs =>
      rw [hs] at hi
      simp only [Function.update_self]
      exact fun i => ⟨hi i, fun _ h => by cases h⟩
    case usage request _ _ _ _ hs hn _ =>
      rw [hs] at hi
      simp only [Program.perform, Function.update_self]
      have hi : Session.MayRead _ (some <| .usage request _) := hn.mayRead hi
      exact hi.imp fun i h => ⟨h.left, fun _ he => by cases he; exact h.right⟩
    case webhook event _ _ _ _ hn hs _ =>
      rw [hs] at hi
      simp only [Program.perform, Function.update_self]
      have hi : Session.MayRead _ (some <| .webhook event _) := hn.mayRead hi
      exact hi.imp fun i h => ⟨h.left, fun _ he => by cases he; exact h.right⟩

variable {ok : State → Label → Prop} {as : List Label}

theorem path_mayRead (h : Transition.Path engine.step ok (.boot db) as s) (id : Uuid) :
    Session.MayRead (fun i => ∀ a, .act id a ∈ as → i.Allows a) (s.session id) := by
  induction h
  case nil => exact fun _ _ hm => absurd hm List.not_mem_nil
  case snoc hst hi =>
    refine (Step.of_step hst).mayRead hi |>.imp fun i h a hm => ?_
    rcases List.mem_append.mp hm with hm | hm
    · exact h.left a hm
    · exact h.right a (List.mem_singleton.mp hm).symm

-- Every run reads some inputs.
theorem exists_inputs (h : Transition.Path engine.step ok (.boot db) as s) :
    ∃ inputs, ∀ l ∈ as, Reads inputs l := by
  choose inputs hi using fun id => (path_mayRead h id).exists
  refine ⟨inputs, fun l hl => ?_⟩
  cases l
  case act id a => exact hi id a hl
  all_goals trivial

end Execution
