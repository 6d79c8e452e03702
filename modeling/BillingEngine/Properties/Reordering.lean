import BillingEngine.Library.Traces
import BillingEngine.Execution.Serial
import BillingEngine.Properties.Edits

open StripeWebhookHandler

namespace WebhookEvent

-- The event can set the plan type of a tenant.
def SetsPlan (event : WebhookEvent) : Prop :=
  dispatch event.type = some .checkoutCompleted ∨ dispatch event.type = some .subscriptionDeleted

-- The order of the two events can make a difference.
inductive Depends (event event' : WebhookEvent) : Prop
  | event (hi : event.id = event'.id) : Depends event event'
  | subscription {id} (hn : event.Names id) (hn' : event'.Names id) : Depends event event'
  | plan (hs : event.SetsPlan) (hs' : event'.SetsPlan)
    (hc : dispatch event.type = some .checkoutCompleted ∨
      dispatch event'.type = some .checkoutCompleted) : Depends event event'

variable {event event' : WebhookEvent}

theorem Depends.refl (event : WebhookEvent) : event.Depends event :=
  .event rfl

theorem Depends.symm (h : event.Depends event') : event'.Depends event := by
  cases h
  case event hi             => exact .event hi.symm
  case subscription hn hn'  => exact .subscription hn' hn
  case plan hs hs' hc       => exact .plan hs' hs hc.symm

end WebhookEvent

namespace StripeWebhookHandler

variable {db : Database} {event event' : WebhookEvent} {now : Instant} {e e' : Edit}
  {m m' : ProcessedWebhook}

-- An edit does not change what independent events look at.

theorem flushSubscription_congr {db' : Database} {work : UnitOfWork}
    (h : db'.subscriptions.map (·.stripeSubscriptionId) =
      db.subscriptions.map (·.stripeSubscriptionId)) :
    flushSubscription db' work = flushSubscription db work := by
  have hex {id} : (∃ s ∈ db'.subscriptions, s.stripeSubscriptionId = id) ↔
      ∃ s ∈ db.subscriptions, s.stripeSubscriptionId = id := by
    simp only [← List.mem_map, h]
  simp only [flushSubscription, hex]

theorem edit_apply (he : e.By event') (hd : ¬event'.Depends event) :
    edit (e.apply db m) event now = edit db event now := by
  unfold edit
  cases ht : dispatch event.type
  case none => rfl
  case some d =>
    cases d
    case checkoutCompleted =>
      have hs : event.SetsPlan := .inl ht
      cases he
      case none => rfl
      case insert ht' _ => exact hd.elim <| .plan (.inl ht') hs (.inl ht')
      case write id c canceled _ hc =>
        cases canceled
        case some => exact hd.elim <| .plan (.inr <| hc rfl) hs (.inr ht)
        case none =>
          have hh : handle ((Edit.write id c none).apply db m) event now = handle db event now := by
            simp only [handle, ht]
            rfl
          have hf {work} : flushSubscription ((Edit.write id c none).apply db m) work =
              flushSubscription db work :=
            flushSubscription_congr <| Rows.modify_map fun _ => rfl
          simp only [hh, hf]
    all_goals
      simp only
      rcases hi : subscriptionId event with _ | id
      case error => rfl
    case subscriptionUpdated.ok =>
      have hn : ¬event'.Names id := fun hn => hd <| .subscription hn <| .inl ⟨.inl ht, hi⟩
      simp only [bind, Except.bind, getSubscription_apply he hn]
    case subscriptionDeleted.ok =>
      have hn : ¬event'.Names id := fun hn => hd <| .subscription hn <| .inl ⟨.inr ht, hi⟩
      simp only [bind, Except.bind, getSubscription_apply he hn]

theorem outcome_some {answer : Except PyError WebhookResult}
    (h : outcome db event now = (answer, some (e, m))) : e.By event ∧ m.eventId = event.id := by
  unfold outcome at h
  split at h
  case h_1 => cases h
  case h_2 hm =>
    split at h
    case isTrue  => cases h
    case isFalse =>
      split at h <;> cases h
      case h_2 he => exact ⟨edit_by he, marker_eventId hm⟩

theorem outcome_apply (he : e.By event') (hm : m.eventId = event'.id) (hd : ¬event'.Depends event) :
    outcome (e.apply db m) event now = outcome db event now := by
  have hp : (e.apply db m).Processed event.id ↔ db.Processed event.id := by
    have hne : event'.id ≠ event.id := fun hi => hd <| .event hi
    simp [Database.Processed, Edit.apply, or_and_right, exists_or, hm, hne]
  simp only [outcome, hp, edit_apply he hd]

end StripeWebhookHandler

namespace Edit

variable {event event' : WebhookEvent} {e e' : Edit}

-- Edits of independent events do not overlap.

theorem tenants_comm (he : e.By event) (he' : e'.By event') (hd : ¬event.Depends event')
    {rows : List Tenant} : e'.tenants (e.tenants rows) = e.tenants (e'.tenants rows) := by
  cases he <;> cases he'
  case write.write _ _ canceled _ _ _ _ canceled' _ _ =>
    cases canceled <;> cases canceled' <;> try rfl
    exact Rows.modify_comm (fun _ => rfl) (fun _ => rfl) fun _ _ => rfl
  case write.insert canceled _ hc _ _ ht _ =>
    cases canceled
    case none => rfl
    case some => exact hd.elim <| .plan (.inr <| hc rfl) (.inl ht) (.inr ht)
  case insert.write ht _ _ _ canceled _ hc =>
    cases canceled
    case none => rfl
    case some => exact hd.elim <| .plan (.inl ht) (.inr <| hc rfl) (.inl ht)
  case insert.insert ht _ _ _ ht' _ => exact hd.elim <| .plan (.inl ht) (.inl ht') (.inl ht)
  all_goals rfl

theorem sequence_comm (e e' : Edit) {next : Nat} :
    e'.sequence (e.sequence next) = e.sequence (e'.sequence next) := by
  cases e <;> cases e' <;> rfl

theorem subscriptions_comm (he : e.By event) (he' : e'.By event') (hd : ¬event.Depends event')
    {rows : List Subscription} {next : Nat} :
    e'.subscriptions (e.sequence next) (e.subscriptions next rows) =
      e.subscriptions (e'.sequence next) (e'.subscriptions next rows) := by
  cases he <;> cases he'
  case write.write id _ _ hc _ id' _ _ hc' _ =>
    refine Rows.modify_comm (fun _ => rfl) (fun _ => rfl) ?_
    rintro rfl
    exact hd.elim <| .subscription (.inl hc) (.inl hc')
  case write.insert id _ _ hc _ _ id' ht hi =>
    have hne : id' ≠ id := by
      rintro rfl
      exact hd <| .subscription (.inl hc) (.inr ⟨ht, hi⟩)
    simp [subscriptions, sequence, Rows.modify, NewSubscription.inserted, hne]
  case insert.write _ id ht hi id' _ _ hc _ =>
    have hne : id ≠ id' := by
      rintro rfl
      exact hd <| .subscription (.inr ⟨ht, hi⟩) (.inl hc)
    simp [subscriptions, sequence, Rows.modify, NewSubscription.inserted, hne]
  case insert.insert ht _ _ _ ht' _ => exact hd.elim <| .plan (.inl ht) (.inl ht') (.inl ht)
  all_goals rfl

end Edit

-- The databases differ in the order of the rows of `processed_webhooks` only.
structure Database.Reordered (db db' : Database) : Prop where
  rest : db' = { db with processedWebhooks := db'.processedWebhooks }
  log  : db.processedWebhooks.Perm db'.processedWebhooks

namespace Database.Reordered

variable {db db' db'' : Database}

theorem refl (db : Database) : db.Reordered db :=
  ⟨rfl, .refl _⟩

theorem trans (h : db.Reordered db') (h' : db'.Reordered db'') : db.Reordered db'' where
  rest := by rw [h'.rest, h.rest]
  log  := h.log.trans h'.log

-- Nobody asks for this order.
theorem handleEvent (h : db.Reordered db') (event : WebhookEvent) (now : Instant) :
    (StripeWebhookHandler.handleEvent db event now).1 =
      (StripeWebhookHandler.handleEvent db' event now).1 ∧
    (StripeWebhookHandler.handleEvent db event now).2.Reordered
      (StripeWebhookHandler.handleEvent db' event now).2 := by
  obtain ⟨hr, hl⟩ := h
  generalize db'.processedWebhooks = log at hr hl
  subst hr
  have hp : ({ db with processedWebhooks := log }).Processed event.id ↔ db.Processed event.id := by
    simp only [Processed, hl.mem_iff]
  have hh : handle { db with processedWebhooks := log } event now = handle db event now := rfl
  have hf {work} : flushSubscription { db with processedWebhooks := log } work =
      flushSubscription db work := rfl
  simp only [StripeWebhookHandler.handleEvent, hp, hh, hf]
  cases marker event
  case error => exact ⟨rfl, rfl, hl⟩
  case ok m =>
    by_cases hp : db.Processed event.id
    case pos => simp only [hp, if_true, true_and]; exact ⟨rfl, hl⟩
    case neg =>
      simp only [hp, if_false]
      rcases handle db event now with _ | ⟨work, result⟩
      case error => exact ⟨rfl, rfl, hl⟩
      case ok =>
        rcases hw : flushSubscription db work with _ | write <;> simp only [hw, true_and]
        case error => exact ⟨rfl, hl⟩
        case ok =>
          simp only [applyWebhook_eq]
          constructor
          case rest => rcases write with _ | _ | _ <;> rfl
          case log  => exact hl.append_right _

end Database.Reordered

theorem Edit.apply_comm {event event' : WebhookEvent} {e e' : Edit} {m m' : ProcessedWebhook}
    {db : Database} (he : e.By event) (he' : e'.By event') (hd : ¬event.Depends event') :
    (e'.apply (e.apply db m) m').Reordered (e.apply (e'.apply db m') m) where
  rest := by
    simp only [apply, tenants_comm he he' hd, subscriptions_comm he he' hd, sequence_comm e e']
  log := by
    simp only [apply, List.append_assoc, List.singleton_append]
    exact .append_left _ <| .swap ..

-- An event as it is delivered at a time.
structure Delivery where
  event : WebhookEvent
  now   : Instant

namespace Delivery

def Depends (d d' : Delivery) : Prop :=
  d.event.Depends d'.event

def serve (db : Database) (d : Delivery) : Except PyError WebhookResult × Database :=
  handleEvent db d.event d.now

variable {db : Database} {d d' : Delivery}

theorem serve_keeps (hw : db.WellFormed) (hu : db.Unique) :
    (d.serve db).2.WellFormed ∧ (d.serve db).2.Unique := by
  rcases hs : d.serve db with ⟨answer, db'⟩
  have hd := delivers db d.event d.now
  rw [← serve, hs] at hd
  cases hd
  case apply hf =>
    refine ⟨Database.applyWebhook_rowChange.wellFormed hw, hu.applyWebhook fun _ _ he => ?_⟩
    exact flushSubscription_insert <| he ▸ hf
  all_goals exact ⟨hw, hu⟩

theorem serve_fst (hw : db.WellFormed) (hu : db.Unique) :
    (d.serve db).1 = (outcome db d.event d.now).1 := by
  rw [serve, handleEvent_outcome hw hu]

theorem serve_snd (hw : db.WellFormed) (hu : db.Unique) : (d.serve db).2 =
    (outcome db d.event d.now).2.elim db fun (e, m) => e.apply db m := by
  rw [serve, handleEvent_outcome hw hu]

-- A delivery does not see the independent ones before it.
theorem outcome_serve (hw : db.WellFormed) (hu : db.Unique) (hd : ¬d.Depends d') :
    outcome (d.serve db).2 d'.event d'.now = outcome db d'.event d'.now := by
  rw [serve_snd hw hu]
  rcases ho : outcome db d.event d.now with ⟨answer, _ | ⟨e, m⟩⟩
  case none => rfl
  case some =>
    obtain ⟨he, hm⟩ := outcome_some ho
    exact outcome_apply he hm hd

theorem commuting : Traces.Commuting serve Depends (fun db => db.WellFormed ∧ db.Unique)
    Database.Reordered where
  refl  := .refl
  trans := .trans
  keeps := fun ⟨hw, hu⟩ _ => serve_keeps hw hu
  congr := fun h d => h.handleEvent d.event d.now
  answer := by
    rintro db d d' ⟨hw, hu⟩ hd
    obtain ⟨hw', hu'⟩ := serve_keeps (d := d) hw hu
    rw [serve_fst hw' hu', outcome_serve hw hu hd, serve_fst hw hu]
  state := by
    rintro db a b ⟨hw, hu⟩ hd
    have hd' : ¬b.Depends a := fun h => hd h.symm
    obtain ⟨hw₁, hu₁⟩ := serve_keeps (d := a) hw hu
    obtain ⟨hw₂, hu₂⟩ := serve_keeps (d := b) hw hu
    rw [serve_snd hw₁ hu₁, outcome_serve hw hu hd, serve_snd hw₂ hu₂, outcome_serve hw hu hd',
      serve_snd hw hu, serve_snd hw hu]
    rcases ha : outcome db a.event a.now with ⟨_, _ | ⟨e, m⟩⟩ <;>
      rcases hb : outcome db b.event b.now with ⟨_, _ | ⟨e', m'⟩⟩
    case some.some =>
      obtain ⟨he, _⟩  := outcome_some ha
      obtain ⟨he', _⟩ := outcome_some hb
      exact Edit.apply_comm he he' hd
    all_goals exact .refl _

-- Deliveries can be taken in any order in which dependent ones stay in theirs: each of them gets
-- the same answer, and they leave the same rows behind.
theorem reordered (hw : db.WellFormed) (hu : db.Unique) {ds ds' : List Delivery}
    (h : Traces.SameOrder Depends ds ds') :
    (Calls.log serve db ds).Perm (Calls.log serve db ds') ∧
      (Calls.after serve db ds).Reordered (Calls.after serve db ds') :=
  commuting.log_sameOrder (fun d => .refl d.event) .symm h ⟨hw, hu⟩

-- A tenant with two subscriptions, one of which is deleted while the other one becomes past due.
theorem reordered_events : ∃ (db : Database) (ds ds' : List Delivery),
    ds.map (·.event.id) = ["evt_1", "evt_2"] ∧ ds'.map (·.event.id) = ["evt_2", "evt_1"] ∧
    (Calls.after serve db ds).subscriptions.map (·.status) = [.pastDue, .canceled] ∧
    (Calls.log serve db ds).Perm (Calls.log serve db ds') ∧
    (Calls.after serve db ds).Reordered (Calls.after serve db ds') := by
  let db : Database := { Database.migrated Plan.seeds with
    tenants            := [⟨1, "acme", .pro, some "cus", .active⟩]
    subscriptions      := [⟨1, 1, some "sub_1", 2, .active, 0, 10⟩,
                           ⟨2, 1, some "sub_2", 2, .active, 0, 10⟩]
    nextSubscriptionId := 3 }
  let update : Delivery := ⟨.updated "evt_1" "sub_1" "past_due", 1⟩
  let delete : Delivery := ⟨.deleted "evt_2" "sub_2", 2⟩
  have hw : db.WellFormed := ⟨by simp [db], by simp [db]⟩
  have hu : db.Unique :=
    ⟨by simp [db], by simp [db], by simp [db, Database.migrated, Plan.seeds], by simp [db]⟩
  have hn : update.event.Names = (· = some "sub_1") := by
    funext id
    have hi : subscriptionId update.event = .ok (some "sub_1") := rfl
    have ht : dispatch update.event.type = some .subscriptionUpdated := rfl
    simp [WebhookEvent.Names, WebhookEvent.Concerns, hi, ht, eq_comm]
  have hn' : delete.event.Names = (· = some "sub_2") := by
    funext id
    have hi : subscriptionId delete.event = .ok (some "sub_2") := rfl
    have ht : dispatch delete.event.type = some .subscriptionDeleted := rfl
    simp [WebhookEvent.Names, WebhookEvent.Concerns, hi, ht, eq_comm]
  have hd : ¬update.Depends delete := by
    rintro (hi | ⟨h, h'⟩ | ⟨hs, _, _⟩)
    · exact absurd hi <| by decide
    · rw [hn] at h
      rw [hn'] at h'
      exact absurd (h.symm.trans h') <| by decide
    · rcases hs with hs | hs <;> cases hs
  have hswap : Traces.Swaps Depends [update, delete] [delete, update] := .swap hd
  exact ⟨db, _, _, rfl, rfl, by decide +kernel, reordered hw hu <| hswap.sameOrder .symm⟩

end Delivery
