import Mathlib.Data.Prod.Lex
import BillingEngine.Library.Termination
import BillingEngine.Properties.Deadlock

open Sessions

-- How far a request is from its answer. The candidates are the last part of it that can grow with
-- the database.
def Usage.Phase.remaining : Phase → Nat ×ₗ Nat
  | received               => toLex (11, 0)
  | reading _              => toLex (10, 0)
  | selecting _            => toLex (9, 0)
  | locking _ _ candidates => toLex (8, candidates.length)
  | checking ..            => toLex (7, 0)
  | inserting ..           => toLex (6, 0)
  | recording ..           => toLex (5, 0)
  | committing ..          => toLex (4, 0)
  | conflicting _          => toLex (3, 0)
  | rereading              => toLex (2, 0)
  | refusing .. | responding _ => toLex (1, 0)
  | answered _ | crashed   => toLex (0, 0)

def Webhook.Phase.remaining : Phase → Nat ×ₗ Nat
  | received              => toLex (6, 0)
  | marked _              => toLex (5, 0)
  | deleting ..           => toLex (4, 0)
  | flushingTenant ..     => toLex (3, 0)
  | flushingSubscription .. => toLex (2, 0)
  | committing .. | skipping | failing .. => toLex (1, 0)
  | answered _ | raised _ => toLex (0, 0)

def Session.remaining : Session → Nat ×ₗ Nat
  | usage _ phase   => phase.remaining
  | webhook _ phase => phase.remaining

theorem Usage.Next.remaining_lt {db : Database} {id : Uuid} {request : UsageRequest} {p p' : Phase}
    {a : Action} {e : Effect Resource Write} (h : Next db id request p a p' e) (ha : a ≠ .crash) :
    p'.remaining < p.remaining := by
  cases h
  case crash => contradiction
  all_goals simp [Phase.remaining, Prod.Lex.toLex_lt_toLex]

theorem Webhook.Next.remaining_lt {db : Database} {event : WebhookEvent} {p p' : Phase}
    {a : Action} {e : Effect Resource Write} (h : Next db event p a p' e)
    (ha : ∀ error, a ≠ .raise error) : p'.remaining < p.remaining := by
  cases h
  case raise => exact absurd rfl <| ha _
  all_goals simp [Phase.remaining, Prod.Lex.toLex_lt_toLex]

namespace Execution

theorem descends : engine.Descends (·.Ordinary) (InvImage (· < ·) Session.remaining) where
  wf   := InvImage.wf _ wellFounded_lt
  next {_ _ _ a _ _} ho hn := by
    cases Session.Next.of_next hn
    case usage hn   => exact hn.remaining_lt <| by rintro rfl; exact ho
    case webhook hn => exact hn.remaining_lt <| by rintro _ rfl; exact ho

-- A run in which no requests or deliveries arrive, and none of them fails from outside.
def Undisrupted (_ : State) (l : Label) : Prop :=
  l.Ordinary Session.Action.Ordinary

abbrev Undisrupted.Reach : State → State → Prop :=
  Transition.Reach engine.step Undisrupted

-- What remains of the run that has led to `s` once all of it is over.
structure State.Settled (s s' : State) : Prop where
  finished : ∀ {id session}, s'.session id = some session → session.finished
  free     : ∀ x, s'.holder x = none
  answered : ∀ {id request p}, s.session id = some (.usage request p) → p ≠ .crashed →
    ∃ response, s'.Answered id request response
  delivered : ∀ {id event p}, s.session id = some (.webhook event p) →
    ∃ result, s'.session id = some (.webhook event <| .finish result)

variable {db : Database} {s s' : State} {id : Uuid} {request : UsageRequest} {p : Usage.Phase}

-- Requests crash by failures from outside only.
theorem Undisrupted.not_crashed (h : Undisrupted.Reach s s')
    (hs : s.session id = some (.usage request p)) (hp : p ≠ .crashed) :
    s'.session id ≠ some (.usage request .crashed) := by
  induction h
  case refl => rw [hs]; simpa using hp
  case tail ho hst hi =>
    intro hc
    rcases (Step.of_step hst).usage_session hc with ⟨_, hc⟩ | ⟨hc, _⟩ | ⟨_, _, _, rfl, _, hn, _⟩
    case inl      => exact hi hc
    case inr.inl  => cases hc
    case inr.inr  => cases hn; exact ho

-- A request that waits is not finished.
theorem acyclic_of_finished (h : ∀ {id session}, s.session id = some session → session.finished) :
    Acyclic s.Waits := by
  intro x hx
  obtain ⟨y, ⟨id, request, p, hs, hw⟩, _⟩ := Relation.TransGen.head'_iff.mp hx
  cases p <;> first | exact hw.elim | exact absurd (h hs) Bool.false_ne_true

theorem State.Settled.of_stuck (h : engine.Reach (.boot db) s) (hr : Undisrupted.Reach s s')
    (hs : ¬∃ s'', s'.Advances engine (·.Ordinary) s'') (hc : Acyclic s'.Waits) : s.Settled s' := by
  have hr' := h.trans hr.weaken
  have ha := agrees hr'
  have finished {id session} (hl : s'.session id = some session) : session.finished := by
    simpa using (ordered hr' hc).stuck ha hs hl
  refine ⟨finished, fun x => ?free, fun {id request p} hp hc => ?answered, fun hp => ?delivered⟩
  case free =>
    refine ha.free fun hl hh => ?_
    have hf := finished hl
    simp [unfinished_of_holds hh] at hf
  case answered =>
    obtain ⟨p', hp'⟩ := usage_persists hr.weaken hp
    have hf := finished hp'
    cases p' <;> try cases hf
    case answered response => exact ⟨response, hp'⟩
    case crashed           => exact absurd hp' <| Undisrupted.not_crashed hr hp hc
  case delivered =>
    obtain ⟨p', hp'⟩ := webhook_persists hr.weaken hp
    have hf := finished hp'
    cases p' <;> try cases hf
    case answered result => exact ⟨.ok result, hp'⟩
    case raised error    => exact ⟨.error error, hp'⟩

-- Once no more requests and deliveries arrive, the run comes to an end, however the remaining steps
-- are interleaved. Then all requests have been answered, and nothing is locked any more, unless
-- requests wait in a circle for rows that others of them have skipped.
theorem settles (h : engine.Reach (.boot db) s) :
    Acc (fun s' s => s.Advances engine (·.Ordinary) s') s ∧
    (∃ s', Undisrupted.Reach s s' ∧ ¬∃ s'', s'.Advances engine (·.Ordinary) s'') ∧
    ∀ {s'}, Undisrupted.Reach s s' → (¬∃ s'', s'.Advances engine (·.Ordinary) s'') →
      (s.Settled s' ↔ Acyclic s'.Waits) ∧ (Uncircled.Reach (.boot db) s' → s.Settled s') := by
  obtain ⟨F, hF⟩ := Program.Reach.finite h
  have hacc := descends.acc hF
  refine ⟨hacc, State.exists_stuck hacc, fun hr hs => ⟨⟨?settled, .of_stuck h hr hs⟩, ?uncircled⟩⟩
  case settled   => exact fun hset => acyclic_of_finished hset.finished
  case uncircled => exact fun hu => .of_stuck h hr hs <| acyclic hu

theorem stuck_of_finished (h : ∀ {id session}, s.session id = some session → session.finished) :
    ¬∃ s', s.Advances engine (·.Ordinary) s' := by
  rintro ⟨s', l, hl, hst⟩
  cases Step.of_step hst <;> try exact hl
  case usage hs hn _   => exact absurd (h hs) <| by simp [Session.finished, hn.unfinished]
  case webhook hs hn _ => exact absurd (h hs) <| by simp [Session.finished, hn.unfinished]

-- The second request waits for the row that the first one has locked, but not forever.
theorem settles_waiting : ∃ s s' : State, (engine.step s (.act 11 <| .usage .lock)).isNone ∧
    Undisrupted.Reach s s' ∧ s.Settled s' := by
  let as := .env (.createTenant 1 { name := "acme" } 0) ::
    (checkLabels 10 (.apiCall 1 "a" (by decide)) (.stable _) 1 ++
      (checkLabels 11 (.apiCall 1 "b" (by decide)) (.stable _) 1).take 4)
  let as' := commitLabels 10 1 ++ [.act 11 <| .usage .lock, .act 11 <| .usage <| .check 2] ++
    commitLabels 11 2
  obtain ⟨s, s', hrun, hlock, hrun', hrun'', hfin⟩ : ∃ s s' : State,
      Transition.run engine.step (.boot <| .migrated Plan.seeds) as = some s ∧
      (engine.step s (.act 11 <| .usage .lock)).isNone ∧
      Transition.run engine.step s as' = some s' ∧
      Transition.run engine.step (.boot <| .migrated Plan.seeds) (as ++ as') = some s' ∧
      ∀ id ∈ [10, 11], ∀ session ∈ s'.session id, session.finished :=
    ⟨_, _, rfl, rfl, rfl, rfl, by decide +kernel⟩
  have hr : Undisrupted.Reach s s' := .of_run_all hrun' <| by
    simp [as', commitLabels, Undisrupted, Label.Ordinary, Session.Action.Ordinary]
  have hid : ∀ l ∈ as ++ as', ∀ id ∈ l.session?, id ∈ [10, 11] := by decide +kernel
  have hfin {id session} (hs : s'.session id = some session) : session.finished := by
    obtain ⟨l, hl, ht⟩ := session_of_run hrun'' hs |>.resolve_left (by simp [Sessions.State.boot])
    exact hfin id (hid l hl id ht) session hs
  have hreach := Transition.Reach.of_run hrun |>.weaken
  have hsettled := settles hreach |>.right.right hr (stuck_of_finished hfin)
  exact ⟨s, s', hlock, hr, hsettled.left.mpr <| acyclic_of_finished hfin⟩

end Execution
