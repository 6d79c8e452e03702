import BillingEngine.Execution.Usage
import BillingEngine.Execution.Webhook

open Sessions

inductive Session
  | usage (request : UsageRequest) (phase : Usage.Phase)
  | webhook (event : WebhookEvent) (phase : Webhook.Phase)

namespace Session

inductive Action
  | usage (a : Usage.Action)
  | webhook (a : Webhook.Action)

-- A step of the code, as opposed to a failure around it.
def Action.Ordinary : Action → Prop
  | usage .crash       => False
  | webhook (.raise _) => False
  | _                  => True

def held : Session → List Resource
  | usage _ phase   => phase.held
  | webhook _ phase => phase.held

def fresh : Session → Bool
  | usage _ .received | webhook _ .received => true
  | _                                       => false

def input : Session → UsageRequest ⊕ WebhookEvent
  | usage request _ => .inl request
  | webhook event _ => .inr event

def finished : Session → Bool
  | usage _ phase   => phase.finished
  | webhook _ phase => phase.finished

def next (db : Database) (id : Uuid) : Session → Action → Option (Session × Effect Resource Write)
  | usage request phase, .usage a =>
    (Usage.next db id request phase a).map fun (phase, e) => (usage request phase, e)
  | webhook event phase, .webhook a =>
    (Webhook.next db event phase a).map fun (phase, e) => (webhook event phase, e)
  | _, _ => none

end Session

-- The transitions of a session are those of its request or delivery.
inductive Session.Next (db : Database) (id : Uuid) :
    Session → Session.Action → Session → Effect Resource Write → Prop
  | usage {request p a p' e} (hn : Usage.Next db id request p a p' e) :
    Next db id (.usage request p) (.usage a) (.usage request p') e
  | webhook {event p a p' e} (hn : Webhook.Next db event p a p' e) :
    Next db id (.webhook event p) (.webhook a) (.webhook event p') e

theorem Session.Next.of_next {db id} {l l' : Session} {a e} (h : l.next db id a = some (l', e)) :
    Next db id l a l' e := by
  cases l <;> cases a <;> try contradiction
  case usage.usage =>
    obtain ⟨⟨_, _⟩, hn, h⟩ := Option.map_eq_some_iff.mp h
    cases h
    exact .usage <| .of_next hn
  case webhook.webhook =>
    obtain ⟨⟨_, _⟩, hn, h⟩ := Option.map_eq_some_iff.mp h
    cases h
    exact .webhook <| .of_next hn

theorem Usage.Next.session_next {db id request p a p' e}
    (h : Usage.Next db id request p a p' e) :
    Session.next db id (.usage request p) (.usage a) = some (.usage request p', e) := by
  simp [Session.next, h.to_next]

theorem Webhook.Next.session_next {db id event p a p' e} (h : Webhook.Next db event p a p' e) :
    Session.next db id (.webhook event p) (.webhook a) = some (.webhook event p', e) := by
  simp [Session.next, h.to_next]

-- Any number of usage requests and webhook deliveries. The id of a request is the `uuid4` that
-- its event gets, if it comes to inserting one.
def engine : Program Uuid Database Session Session.Action Resource Write Operation where
  initial _ := Session.fresh
  next      := Session.next
  apply     := Write.apply
  env       := Operation.apply

namespace Execution

abbrev State :=
  Sessions.State Uuid Database Session Resource

abbrev Label :=
  Sessions.Label Uuid Session Session.Action Operation

-- The client of the request `id` has got an answer.
def State.Answered (s : State) (id : Uuid) (request : UsageRequest) (response : HttpResponse) :
    Prop :=
  s.session id = some (.usage request <| .answered response)

-- The session `id` can reach a state with `P` by its own steps alone.
def State.Can (s : State) (id : Uuid) (P : State → Prop) : Prop :=
  ∃ as s', (∀ l ∈ as, Label.session? l = some id) ∧
    Transition.run engine.step s as = some s' ∧ P s'

-- The steps of the system, case by case.
inductive Step (s : State) : Label → State → Prop
  | receive {id request} (idle : s.session id = none) :
    Step s (.start id <| .usage request .received)
      { s with session := Function.update s.session id (some <| .usage request .received) }
  | deliver {id event} (idle : s.session id = none) :
    Step s (.start id <| .webhook event .received)
      { s with session := Function.update s.session id (some <| .webhook event .received) }
  | usage {id request p a p' e} (session : s.session id = some (.usage request p))
    (next : Usage.Next s.db id request p a p' e) (grants : s.Grants id e) :
    Step s (.act id <| .usage a) (engine.perform s id (.usage request p') e)
  | webhook {id event p a p' e} (session : s.session id = some (.webhook event p))
    (next : Webhook.Next s.db event p a p' e) (grants : s.Grants id e) :
    Step s (.act id <| .webhook a) (engine.perform s id (.webhook event p') e)
  | operation {op db} (apply : op.apply s.db = some db) : Step s (.env op) { s with db }

variable {s s' : State} {l : Label}

namespace State.Can

variable {id : Uuid} {P : State → Prop}

theorem done (h : P s) : s.Can id P :=
  ⟨[], s, by simp, rfl, h⟩

theorem step (ht : l.session? = some id) (hs : engine.step s l = some s') (h : s'.Can id P) :
    s.Can id P := by
  have ⟨as, s'', ha, hr, hp⟩ := h
  exact ⟨l :: as, s'', List.forall_mem_cons.mpr ⟨ht, ha⟩,
    Transition.run_cons_some.mpr ⟨s', hs, hr⟩, hp⟩

end State.Can

theorem Step.of_step (h : engine.step s l = some s') : Step s l s' := by
  cases Program.step_iff.mp h
  case env ha => exact .operation ha
  case start t l idle initial =>
    cases l
    case usage _ phase   => cases phase <;> cases initial; exact .receive idle
    case webhook _ phase => cases phase <;> cases initial; exact .deliver idle
  case act session next grants =>
    cases Session.Next.of_next next
    case usage hn   => exact .usage session hn grants
    case webhook hn => exact .webhook session hn grants

theorem Step.steps (h : Step s l s') : engine.Steps s l s' := by
  cases h
  case receive        => exact .start ‹_› rfl
  case deliver        => exact .start ‹_› rfl
  case usage hs hn hg => exact .act hs hn.session_next hg
  case webhook id _ _ _ _ _ hs hn hg =>
    have hn : Session.next s.db id _ _ = _ := hn.session_next
    exact .act hs hn hg
  case operation      => exact .env ‹_›

theorem step_usage {id request p a p' e} (hs : s.session id = some (.usage request p))
    (hn : Usage.next s.db id request p a = some (p', e)) (hg : s.Grants id e) :
    engine.step s (.act id <| .usage a) = some (engine.perform s id (.usage request p') e) :=
  Program.step_iff.mpr <| .act hs (by simp [engine, Session.next, hn]) hg

theorem step_webhook {id event p a p' e} (hs : s.session id = some (.webhook event p))
    (hn : Webhook.next s.db event p a = some (p', e)) (hg : s.Grants id e) :
    engine.step s (.act id <| .webhook a) = some (engine.perform s id (.webhook event p') e) :=
  Program.step_iff.mpr <| .act hs (by simp [engine, Session.next, hn]) hg

-- The lock table agrees with what the sessions hold by their phases.

def holds (l : Session) (x : Resource) : Prop :=
  x ∈ l.held

theorem tracks : engine.Tracks holds where
  initial {_ l _} h := by
    cases l
    case usage _ phase   => cases phase <;> simp_all [engine, Session.fresh, holds, Session.held,
                              Usage.Phase.held]
    case webhook _ phase => cases phase <;> simp_all [engine, Session.fresh, holds, Session.held,
                              Webhook.Phase.held]
  next {_ _ _ _ _ _ x} h := by
    cases Session.Next.of_next h
    case usage hn   => exact hn.held x
    case webhook hn => exact hn.held x

theorem agrees {db : Database} (h : engine.Reach (.boot db) s) : s.Agrees holds :=
  .reach tracks h

end Execution
