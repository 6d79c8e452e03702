import BillingEngine.Execution.Theorems.Locks

open Sessions StripeWebhookHandler

-- What holds of webhook deliveries in every reachable state.

namespace Webhook

-- The facts that hold in a phase regardless of the database.
def Phase.Local (event : WebhookEvent) : Phase → Prop
  | marked m | deleting m _ => m.eventId = event.id
  | flushingTenant m _ result | flushingSubscription m _ result | committing m _ _ result =>
    m.eventId = event.id ∧ ∀ id, result ≠ .duplicateIgnored id
  | answered result => ∀ id, result = .duplicateIgnored id → id = event.id
  | _ => True

variable {db : Database} {event : WebhookEvent} {p p' : Phase} {a : Action}
  {e : Effect Resource Write}

theorem Next.local (h : Next db event p a p' e) (hl : p.Local event) : p'.Local event := by
  cases h <;> simp only [Phase.Local] at hl ⊢
  case mark hm _      => exact marker_eventId hm
  case handle hh _    => exact ⟨hl, (Handles.of_handle hh).applied⟩
  case load           => exact hl
  case getTenant      => exact ⟨hl, nofun⟩
  case flushTenant    => exact hl
  case flushSubscription => exact hl
  case commit         => exact fun id he => absurd he <| hl.right id
  case skip           => exact fun _ he => (WebhookResult.duplicateIgnored.inj he).symm

end Webhook

namespace Execution

variable {s s' : State} {l : Label} {db : Database} {id : Uuid} {event : WebhookEvent}
  {p : Webhook.Phase}

theorem delivery_locals {ok : State → Label → Prop}
    (h : Transition.Reach engine.step ok (.boot db) s)
    (hs : s.session id = some (.webhook event p)) : p.Local event :=
  webhook_reach h (I := fun _ _ => Webhook.Phase.Local) (by simp [Sessions.State.boot]) trivial
    (fun _ _ hn _ _ hl => hn.local hl) (fun _ _ _ _ _ hl => hl) hs

-- The effects of the delivery have been committed.
def State.Applied (s : State) (id : Uuid) (event : WebhookEvent) : Prop :=
  ∃ result, s.session id = some (.webhook event <| .answered result) ∧
    ∀ eventId, result ≠ .duplicateIgnored eventId

-- Event ids are recorded by the commits of their deliveries.

theorem Step.processed {eventId : String} (h : Step s l s') (hp : s'.db.Processed eventId) :
    s.db.Processed eventId ∨ ∃ id event marker planType write result,
      l = .act id (.webhook .commit) ∧
      s.session id = some (.webhook event <| .committing marker planType write result) ∧
      marker.eventId = eventId := by
  obtain ⟨w, hw, hid⟩ := hp
  cases h.commits
  case none hd      => exact .inl ⟨w, hd ▸ hw, hid⟩
  case usage hd     => exact .inl ⟨w, by rwa [hd] at hw, hid⟩
  case operation ho => exact .inl ⟨w, Operation.processed ho ▸ hw, hid⟩
  case webhook hs hd _ =>
    simp only [hd, Database.applyWebhook_processed, List.mem_append, List.mem_singleton] at hw
    rcases hw with hw | rfl
    · exact .inl ⟨w, hw, hid⟩
    · exact .inr ⟨_, _, _, _, _, _, rfl, hs, hid⟩

theorem Step.processed_mono {eventId : String} (h : Step s l s') (hp : s.db.Processed eventId) :
    s'.db.Processed eventId := by
  obtain ⟨w, hw, hid⟩ := hp
  refine ⟨w, ?_, hid⟩
  cases h.commits
  case none hd        => rwa [hd]
  case usage hd       => rwa [hd]
  case operation ho   => rwa [Operation.processed ho]
  case webhook hd _ => simp [hd, hw]

theorem Step.applied_mono (h : Step s l s') (ha : s.Applied id event) : s'.Applied id event := by
  obtain ⟨result, hs, hr⟩ := ha
  exact ⟨result, h.finished_eq hs rfl |>.trans hs, hr⟩

theorem Step.applied (h : Step s l s') (ha : s'.Applied id event) :
    s.Applied id event ∨ ∃ marker planType write result, l = .act id (.webhook .commit) ∧
      s.session id = some (.webhook event <| .committing marker planType write result) := by
  obtain ⟨result, hs, hr⟩ := ha
  rcases h.webhook_session hs with ⟨_, hs⟩ | ⟨hp, _⟩ | ⟨p, a, e, rfl, hs, hn, _⟩
  case inl => exact .inl ⟨result, hs, hr⟩
  case inr.inl => cases hp
  case inr.inr =>
    cases hn
    case commit => exact .inr ⟨_, _, _, _, rfl, hs⟩
    case skip   => exact absurd rfl (hr _)

-- A commit applies its delivery.
theorem Step.commit_applied {marker planType write result}
    (h : Step s (.act id <| .webhook .commit) s')
    (hl : Webhook.Phase.Local event (.committing marker planType write result))
    (hs : s.session id = some (.webhook event <| .committing marker planType write result)) :
    s'.Applied id event ∧ s'.db = s.db.applyWebhook marker planType write := by
  cases h
  case webhook hs' _ hn =>
    cases hs.symm.trans hs'
    cases hn
    exact ⟨⟨result, Function.update_self .., hl.right⟩, rfl⟩

end Execution

-- While a delivery holds the key of its event, the event has not been processed.

theorem Webhook.Next.webhookId {db event p a p' e} {eventId : String}
    (h : Webhook.Next db event p a p' e) (hh : .webhookId eventId ∈ p'.held) :
    .webhookId eventId ∈ p.held ∨ ¬db.Processed eventId := by
  rw [h.held] at hh
  cases h
  case mark hp        => exact hh.imp (fun he => Resource.webhookId.inj he ▸ hp) id |>.symm
  case flushTenant work _ =>
    cases hw : work.planType <;> simp_all [Webhook.acquire, Effect.held]
  case flushSubscription write _ =>
    simp only [Webhook.acquire_held] at hh
    rcases write with _ | ⟨_, _ | _⟩ | _ <;> simp_all [Webhook.writeLock]
  all_goals simp_all [Effect.held]

namespace Execution

theorem unprocessed {db : Database} {s : State} (h : engine.Reach (.boot db) s) {id event p}
    (hs : s.session id = some (.webhook event p)) :
    ∀ {eventId}, .webhookId eventId ∈ p.held → ¬s.db.Processed eventId := by
  intro eventId
  refine webhook_reach h (I := fun db _ _ p => .webhookId eventId ∈ p.held → ¬db.Processed eventId)
    ?init ?received ?acts ?others hs
  case init     => simp [Sessions.State.boot]
  case received => simp [Webhook.Phase.held]
  case acts =>
    intro s s' id event p a p' e _ _ hn hd _ hi hh
    cases hn.writes
    case none hw => rw [hd, hw]; exact (hn.webhookId hh).elim hi fun h => h
    case commit  => simp [Webhook.Phase.held] at hh
  case others =>
    intro s s' l id event p hr hst _ ht hs hi hh hp
    rcases hst.processed hp with hp | ⟨id', event', m, pt, w, r, rfl, hs', rfl⟩
    · exact hi hh hp
    · refine ht <| congrArg some <| (agrees hr).unique (x := .webhookId m.eventId) hs' hs ?_ ?_
      · simp [holds, Session.held, Webhook.Phase.held]
      · exact hh

-- What the log of processed events says about the deliveries.

variable {s : State} {db : Database} {id id' : Uuid} {event event' : WebhookEvent}
  {eventId : String}

theorem processed_mono (h : engine.Reach (.boot db) s) (hp : db.Processed eventId) :
    s.db.Processed eventId :=
  h.invariant (I := fun s => s.db.Processed eventId) hp fun hi _ hs =>
    (Step.of_step hs).processed_mono hi

theorem applied_processed (h : engine.Reach (.boot db) s) (ha : s.Applied id event) :
    s.db.Processed event.id := by
  induction h
  case refl => obtain ⟨_, hs, _⟩ := ha; cases hs
  case tail h _ hst hi =>
    replace hst := Step.of_step hst
    rcases hst.applied ha with ha | ⟨m, pt, w, r, rfl, hs⟩
    · exact hst.processed_mono (hi ha)
    · have hl := delivery_locals h hs
      rw [hst.commit_applied hl hs |>.right]
      exact ⟨m, by simp, hl.left⟩

theorem processed_applied (h : engine.Reach (.boot db) s) (hp : s.db.Processed eventId) :
    db.Processed eventId ∨ ∃ id event, s.Applied id event ∧ event.id = eventId := by
  induction h
  case refl => exact .inl hp
  case tail h _ hst hi =>
    replace hst := Step.of_step hst
    rcases hst.processed hp with hp | ⟨id, event, _, _, _, _, rfl, hs, rfl⟩
    · exact (hi hp).imp_right fun ⟨id, event, ha, he⟩ => ⟨id, event, hst.applied_mono ha, he⟩
    · have hl := delivery_locals h hs
      exact .inr ⟨id, event, hst.commit_applied hl hs |>.left, hl.left.symm⟩

-- A commit finds its event unprocessed, so that no other delivery has been applied before.
theorem committing_unprocessed (h : engine.Reach (.boot db) s) {m pt w r}
    (hs : s.session id = some (.webhook event <| .committing m pt w r)) :
    ¬s.db.Processed event.id := by
  refine unprocessed h hs ?_
  simp [Webhook.Phase.held, (delivery_locals h hs).left]

-- No event is applied twice.
theorem applied_unique (h : engine.Reach (.boot db) s) (ha : s.Applied id event)
    (ha' : s.Applied id' event') (he : event.id = event'.id) : id = id' := by
  induction h
  case refl => obtain ⟨_, hs, _⟩ := ha; cases hs
  case tail s s' l h _ hst hi =>
    replace hst := Step.of_step hst
    rcases hst.applied ha with hb | ⟨_, _, _, _, rfl, hs⟩ <;>
      rcases hst.applied ha' with hb' | ⟨_, _, _, _, hl, hs'⟩
    case inl.inl => exact hi hb hb'
    case inl.inr => exact absurd (he ▸ applied_processed h hb) (committing_unprocessed h hs')
    case inr.inl => exact absurd (he ▸ applied_processed h hb') (committing_unprocessed h hs)
    case inr.inr => cases hl; rfl

end Execution
