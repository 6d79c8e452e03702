import BillingEngine.Library.Simulation
import BillingEngine.Execution.Atomic
import BillingEngine.Properties.Orderly
import BillingEngine.Properties.Selection

open Sessions QuotaEnforcer MeteringEngine

namespace Execution

-- Runs of usage requests without webhooks, in which no tenant is suspended or reactivated and
-- requests with the same key do not overlap.
def Quiet (s : State) : Label → Prop
  | .start _ (.usage request _) => ∀ ⦃id request' p⦄, s.session id = some (.usage request' p) →
    request'.idempotencyKey = request.idempotencyKey → p.finished
  | .start _ (.webhook ..)       => False
  | .env (.setTenantStatus ..)   => False
  | _                            => True

abbrev Quiet.Reach : State → State → Prop :=
  Transition.Reach engine.step Quiet

abbrev Quiet.Path : State → List Label → State → Prop :=
  Transition.Path engine.step Quiet

variable {db : Database} {s s' : State} {l : Label} {id : Uuid} {request : UsageRequest}
  {p : Usage.Phase}

theorem Quiet.noWebhook (h : Quiet.Reach s s') : NoWebhook.Reach s s' := by
  refine h.imp fun _ hq => ?_
  unfold NoWebhook
  split
  case h_1 => exact hq
  case h_2 => trivial

theorem Quiet.steady (hd : db.Unambiguous) (h : Quiet.Reach (.boot db) s) (hq : Quiet s l) :
    Steady s l := by
  unfold Steady
  split
  case h_1 => exact hq
  case h_2 => exact hq.elim
  case h_3 => exact fun _ _ _ _ _ _ hl hl' => unambiguous hd (noWebhook h) |>.latest hl hl'
  case h_4 => exact fun _ _ _ _ _ hs => (no_webhook (noWebhook h) _ _ _ hs).elim
  case h_5 => trivial

end Execution

-- What the atomic system has done with a request that stands in the given phase.
def Usage.Phase.Refines (request : UsageRequest) (session : Option Atomic.Session) : Phase → Prop
  | refusing _ raised => session = some (.served request <| Router.raisedResponse raised)
  | responding response | answered response => session = some (.served request response)
  | crashed => ∃ response?, session = some (Option.elim response? (.waiting request)
      (.served request))
  | _ => session = some (.waiting request)

namespace Usage.Phase

variable {request : UsageRequest} {session : Option Atomic.Session} {p : Phase}

theorem Refines.waiting_or_served (h : p.Refines request session) (hf : p.finished = false) :
    session = some (p.response.elim (.waiting request) (.served request)) := by
  cases p <;> first | exact h | cases hf

theorem refines_of (h : session = some (p.response.elim (.waiting request) (.served request))) :
    p.Refines request session := by
  cases p <;> first | exact h | exact ⟨none, h⟩

end Usage.Phase

namespace Execution

-- What happens from outside to usage requests.
def shown : Label → List Atomic.Label
  | .start id (.usage request _) => [.start id request]
  | .env op                      => [.env op]
  | _                            => []

-- The atomic system gets from `a` to `a'` by serving requests, which arrive like those of the run
-- `as`, in between the operations of this run.
def Linearized (inputs : Uuid → Inputs) (as : List Label) (a a' : Atomic.State) : Prop :=
  ∃ bs, Transition.run (Atomic.step inputs) a bs = some a' ∧
    bs.flatMap Atomic.Label.shown = as.flatMap shown

structure State.Refines (s : State) (a : Atomic.State) : Prop where
  db       : a.db = s.db
  idle     : ∀ {id}, s.session id = none → a.session id = none
  requests : ∀ {id request p}, s.session id = some (.usage request p) →
              p.Refines request (a.session id)

variable {db : Database} {inputs : Uuid → Inputs} {s s' : State} {as as' : List Label} {id : Uuid}
  {request : UsageRequest} {p p' : Usage.Phase} {e : Effect Resource Write} {a a' : Atomic.State}
  {response : HttpResponse}

namespace State.Refines

theorem boot : State.Refines (.boot db) (.boot db) where
  db       := rfl
  idle _   := rfl
  requests := by simp [Sessions.State.boot]

-- The request `id` moves to the phase `p'`, and nothing else changes.
theorem move (h : s.Refines a) (hd : a'.db = engine.write e s.db)
    (hs : ∀ id' ≠ id, a'.session id' = a.session id') (hp : p'.Refines request (a'.session id)) :
    State.Refines (engine.perform s id (.usage request p') e) a' where
  db := hd
  idle {id'} hn := by
    by_cases hi : id' = id
    case pos => simp [Program.perform, hi] at hn
    case neg => rw [hs id' hi]; exact h.idle <| by simpa [Program.perform, hi] using hn
  requests {id' request' p''} hn := by
    by_cases hi : id' = id
    case pos =>
      subst hi
      simp only [Program.perform, Function.update_self, Option.some.injEq, Session.usage.injEq]
        at hn
      obtain ⟨rfl, rfl⟩ := hn
      exact hp
    case neg => rw [hs id' hi]; exact h.requests <| by simpa [Program.perform, hi] using hn

theorem stutter (h : s.Refines a) (hw : engine.write e s.db = s.db)
    (hp : p'.Refines request (a.session id)) :
    State.Refines (engine.perform s id (.usage request p') e) a :=
  h.move (h.db.trans hw.symm) (fun _ _ => rfl) hp

-- The request is decided.
theorem serve {i : Inputs} (h : s.Refines a)
    (hr : Router.recordUsage s.db i.order id request i.now i.timestamp =
      (response, engine.write e s.db))
    (hp : p'.Refines request (some <| .served request response)) :
    State.Refines (engine.perform s id (.usage request p') e) (a.serve id request i) := by
  have hserve : a.serve id request i = ⟨engine.write e s.db,
      Function.update a.session id <| some <| .served request response⟩ := by
    rw [Atomic.State.serve, h.db, hr]
  rw [hserve]
  exact h.move rfl (fun _ hi => Function.update_of_ne hi ..) (by simpa using hp)

theorem receive (h : s.Refines a) : State.Refines
    { s with session := Function.update s.session id <| some <| .usage request .received }
    { a with session := Function.update a.session id <| some <| .waiting request } := by
  refine ⟨h.db, fun {id'} hn => ?idle, fun {id' request' p'} hn => ?requests⟩
  case idle =>
    by_cases he : id' = id
    case pos => simp [he] at hn
    case neg => simpa [he] using h.idle <| by simpa [he] using hn
  case requests =>
    by_cases he : id' = id
    case pos =>
      subst he
      simp only [Function.update_self, Option.some.injEq, Session.usage.injEq] at hn ⊢
      obtain ⟨rfl, rfl⟩ := hn
      rfl
    case neg => simpa [he] using h.requests <| by simpa [he] using hn

end State.Refines

-- Every step of a request but one leaves the atomic system alone.
theorem Quiet.simulates (hd : db.Unambiguous) :
    Transition.Simulates engine.step (fun s l => Quiet s l ∧ Reads inputs l) shown (.boot db)
      (Atomic.step inputs) Atomic.Label.shown State.Refines := by
  constructor
  intro s l s' a hr h hq hstep
  have hquiet : Quiet.Reach (.boot db) s := hr.imp fun _ ho => ho.left
  cases Step.of_step hstep
  case receive id request hi =>
    exact ⟨[.start id request], _, by simp [Transition.run_cons, Atomic.step_start (h.idle hi)],
      rfl, h.receive⟩
  case deliver      => exact hq.left.elim
  case operation op db ho =>
    have hs : Atomic.step inputs a (.env op) = some { a with db := _ } :=
      Atomic.step_env (h.db ▸ ho)
    exact ⟨[.env op], { a with db }, by simp [Transition.run_cons, hs], rfl, rfl, h.idle,
      h.requests⟩
  case webhook hs _ _ => exact (no_webhook (Quiet.noWebhook hquiet) _ _ _ hs).elim
  case usage id request p act p' e hs hn _ =>
    have hp := (h.requests hs).waiting_or_served hn.unfinished
    have hsteady : Steady.Reading inputs (.boot db) s := hr.imp fun hr ho =>
      ⟨Quiet.steady hd (hr.imp fun _ ho => ho.left) ho.left, ho.right⟩
    cases Steady.serves hd.rows hd.ledger hsteady hs hq.right hn
    case served hnone hsome hrec =>
      rw [hnone] at hp
      have hp' : p'.Refines request (some <| .served request _) :=
        Usage.Phase.refines_of <| by rw [hsome]; rfl
      exact ⟨[.serve id], _, by simp [Transition.run_cons, Atomic.step_serve hp], rfl,
        h.serve hrec hp'⟩
    case quiet hsame hwr =>
      exact ⟨[], a, rfl, rfl, h.stutter hwr <| Usage.Phase.refines_of <| by rw [hsame, hp]⟩
    case crashed hcr hwr =>
      exact ⟨[], a, rfl, rfl, h.stutter hwr <| by rw [hcr]; exact ⟨_, hp⟩⟩

-- Concurrent usage requests are answered, and leave the database behind, as if each of them had
-- been served at once, with the same arrivals and operations in between. Requests that have been
-- answered in `s` are served before those that arrive later.
theorem linearizable (hd : db.Unambiguous) (h : Quiet.Path (.boot db) as s)
    (h' : Quiet.Path s as' s') : ∃ inputs a a', (∀ l ∈ as ++ as', Reads inputs l) ∧
      Linearized inputs as (.boot db) a ∧ Linearized inputs as' a a' ∧
      s.Refines a ∧ s'.Refines a' := by
  obtain ⟨inputs, hi⟩ := exists_inputs <| h.trans h'
  obtain ⟨hi₁, hi₂⟩ := List.forall_mem_append.mp hi
  have ⟨bs, a, hb, ho, hr⟩ := Quiet.simulates hd |>.path .refl (h.and_all hi₁) .boot
  have ⟨bs', a', hb', ho', hr'⟩ :=
    Quiet.simulates hd |>.path (h.and_all hi₁).reach (h'.and_all hi₂) hr
  exact ⟨inputs, a, a', hi, ⟨bs, hb, ho⟩, ⟨bs', hb', ho'⟩, hr, hr'⟩

-- The second request is refused, as it waits until the first one has used the last call.
theorem linearizable_last_call : ∃ (db : Database) (as : List Label) (s : State)
    (inputs : Uuid → Inputs) (a : Atomic.State),
    s.Answered 10 (.apiCall 1 "a" (by decide))
      (Router.usageResult 201 ⟨10, 1, "api_call", 1, 0, "free", "a"⟩) ∧
    s.Answered 11 (.apiCall 1 "b" (by decide)) (Router.quotaResponse <|
      .quotaExceeded 1 1 1 2591999) ∧
    (∀ l ∈ as, Reads inputs l) ∧ Linearized inputs as (.boot db) a ∧ s.Refines a := by
  let op : Operation := .createTenant 1 { name := "acme" } 0
  let db := (op.apply <| .migrated [⟨1, "free", 1, 100⟩]).get rfl
  have hd : db.Unambiguous := Database.Unambiguous.migrated.operation (Option.some_get _).symm
  let started (s : State) (id : Uuid) (request : UsageRequest) : State :=
    { s with session := Function.update s.session id <| some <| .usage request .received }
  let s₁ : State := started (.boot db) 10 (.apiCall 1 "a" (by decide))
  let s₂ : State := started s₁ 11 (.apiCall 1 "b" (by decide))
  let start (id : Uuid) (request : UsageRequest) : Label := .start id <| .usage request .received
  have h₁ : Quiet.Path (.boot db) [start 10 (.apiCall 1 "a" (by decide))] s₁ := by
    refine .single ?_ rfl
    intro _ _ _ hs
    cases hs
  have h₂ : Quiet.Path s₁ [start 11 (.apiCall 1 "b" (by decide))] s₂ := by
    refine .single ?_ rfl
    intro id request p hs hk
    by_cases hi : id = 10
    case pos => subst hi; cases hs; exact absurd hk (by decide)
    case neg => simp [s₁, started, Sessions.State.boot, Function.update_of_ne hi] at hs
  let as : List Label := (checkLabels 10 (.apiCall 1 "a" (by decide)) (.stable _) 1).tail ++
    (checkLabels 11 (.apiCall 1 "b" (by decide)) (.stable _) 1).tail.take 3 ++
    commitLabels 10 2 ++ [.lock, .check 3, .rollback].map (.act 11 <| .usage ·)
  have hs : Transition.run engine.step s₂ as |>.isSome := rfl
  let s : State := (Transition.run engine.step s₂ as).get hs
  have h₃ : Quiet.Path s₂ as s := .of_run_all (Option.some_get hs).symm <| by
    simp [as, checkLabels, commitLabels, Quiet]
  obtain ⟨inputs, a, _, hi, ha, _, hr, _⟩ := linearizable hd (h₁.trans <| h₂.trans h₃) .nil
  rw [List.append_nil] at hi
  have hretry : retryAfterSeconds 2592000000000 3 = 2591999 := by decide +kernel
  have hraised (r : Nat) : quotaExceededError 1 1 1 r = .quotaExceeded 1 1 1 r := rfl
  exact ⟨db, _, s, inputs, a, rfl, by rw [← hretry, ← hraised]; rfl, hi, ha, hr⟩

end Execution
