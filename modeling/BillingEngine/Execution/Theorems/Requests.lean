import BillingEngine.Execution.Theorems.Ledger

open Sessions MeteringEngine

-- What holds of usage requests in every reachable state.

def Database.Referential (db : Database) : Prop :=
  ∀ e ∈ db.usageEvents, (db.tenant? e.tenantId).isSome

namespace Usage

-- What an answer says about the store of responses.
inductive Answers (db : Database) (id : Uuid) (request : UsageRequest) : HttpResponse → Prop
  | created {body} (stored : db.responses request.idempotencyKey = some body) (own : body.id = id)
    (tenant : body.tenantId = request.payload.tenantId) :
    Answers db id request (Router.usageResult 201 body)
  | replayed {body} (stored : db.responses request.idempotencyKey = some body) :
    Answers db id request (Router.usageResult 200 body)
  | unknownTenant : Answers db id request (Router.tenantNotFound request.payload.tenantId)
  | refused {raised} : Answers db id request (Router.raisedResponse raised)

theorem Answers.extends {db db' : Database} {id request response}
    (h : Answers db id request response) (he : WriteOnce.Extends db.responses db'.responses) :
    Answers db' id request response := by
  cases h
  case created hb hi ht => exact .created (he _ _ hb) hi ht
  case replayed hb      => exact .replayed (he _ _ hb)
  case unknownTenant    => exact .unknownTenant
  case refused          => exact .refused

-- A request leaves the main path by an answer or because its key has been taken.
def Phase.Sound (db : Database) (id : Uuid) (request : UsageRequest) : Phase → Prop
  | recording _ _ e | committing _ _ e _ => ¬db.HasKey e.idempotencyKey
  | conflicting _ | rereading => db.HasKey request.idempotencyKey
  | responding response => response.statusCode = 201 ∧ Answers db id request response
  | answered response => Answers db id request response
  | _ => True

theorem Next.sound {db id request p a p' e} (hl : db.Ledger) (hp : p.Local id request)
    (h : Next db id request p a p' e) (hs : p.Sound db id request) (hc : a ≠ .commit) :
    p'.Sound db id request := by
  cases h <;> simp only [Phase.Sound] at hs ⊢
  case unknownTenant     => exact .unknownTenant
  case replay hr         =>
    obtain ⟨hb, hr⟩ := hl.replay hr
    exact hr ▸ .replayed hb
  case duplicateEvent hk => exact hk
  case insertEvent hk    => exact hk
  case duplicateRecord hr =>
    obtain ⟨hb, _⟩ := hl.replay hr
    exact absurd (hl.responses_isSome.mp <| by simp [hb]) hs
  case insertRecord      => exact hs
  case commit            => contradiction
  case respond           => exact hs.right
  case answer            => exact .refused
  case abandon           => exact hs
  case reread            =>
    have hr := hl.responses_isSome.mpr hs
    simp only [Database.responses, Option.isSome_map] at hr
    obtain ⟨r, hr⟩ := Option.isSome_iff_exists.mp hr
    obtain ⟨hb, he⟩ := hl.replay hr
    simp only [MeteringEngine.reread, hr, he]
    exact .replayed hb

theorem Next.known {db id request p a p' e} (h : Next db id request p a p' e)
    (hk : p ≠ .received → p.finished = false → (db.tenant? request.payload.tenantId).isSome) :
    p' ≠ .received → p'.finished = false → (db.tenant? request.payload.tenantId).isSome := by
  intro _ hf
  cases h
  case getTenant => simp [*]
  all_goals first | (simp [Phase.finished] at hf; done) | exact hk (by simp) rfl

end Usage

namespace Execution

variable {s s' : State} {l : Label} {db : Database}

theorem locals (h : engine.Reach (.boot db) s) {id request p}
    (hs : s.session id = some (.usage request p)) : p.Local id request :=
  usage_reach h (I := fun _ => Usage.Phase.Local) (by simp [Sessions.State.boot]) trivial
    (fun _ _ hn _ _ hl => hn.local hl)
    (fun _ _ _ _ _ hl => hl) hs

-- A key is taken by the commit of a request that holds it.
theorem Step.hasKey {key : String} (h : Step s l s') (hk : s'.db.HasKey key) :
    s.db.HasKey key ∨ ∃ id request skipped check event record, l = .act id (.usage .commit) ∧
      s.session id = some (.usage request <| .committing skipped check event record) ∧
      event.idempotencyKey = key := by
  obtain ⟨e, he, hk⟩ := hk
  cases h.mem_usageEvents he
  case inl he => exact .inl ⟨e, he, hk⟩
  case inr he =>
    obtain ⟨id, request, skipped, check, record, hl, hs⟩ := he
    exact .inr ⟨id, request, skipped, check, e, record, hl, hs, hk⟩

theorem Step.mem_events {e : UsageEvent} (h : Step s l s') (he : e ∈ s.db.usageEvents) :
    e ∈ s'.db.usageEvents := by
  cases h.records
  case same hu   => exact hu.usageEvents ▸ he
  case commit hd => simp [hd, Write.apply, he]

theorem hasKey_mono {key : String} (h : Step s l s') (hk : s.db.HasKey key) :
    s'.db.HasKey key := by
  have ⟨e, he, hk⟩ := hk
  exact ⟨e, h.mem_events he, hk⟩

structure State.Sound (s : State) : Prop where
  ledger   : s.db.Ledger
  requests : ∀ {id request p}, s.session id = some (.usage request p) → p.Sound s.db id request

namespace State.Sound

theorem flushed_fresh (h : s.Sound) {id request p e} (hs : s.session id = some (.usage request p))
    (he : p.flushed = some e) : ¬s.db.HasKey e.idempotencyKey := by
  have hp := h.requests hs
  cases p <;> cases he <;> exact hp

-- The response store is written once per key.
theorem refines (h : s.Sound) (hl : ∀ {id request p}, s.session id = some (.usage request p) →
    p.Local id request) (hs : Step s l s') :
    s'.db.Ledger ∧ WriteOnce.Step s.db.responses s'.db.responses := by
  cases hs.records
  case same hu => exact ⟨hu.ledger h.ledger, hu.responses ▸ .stutter⟩
  case commit id request skipped check event record hp hd =>
    have hk := h.flushed_fresh hp rfl
    have hc : Caches event record := ⟨_, (hl hp).right.right⟩
    rw [hd, h.ledger.responses_usage hk hc]
    exact ⟨h.ledger.append hk hc, .write <| h.ledger.responses_eq_none hk⟩

theorem step (h : s.Sound) (ha : s.Agrees holds)
    (hl : ∀ {id request p}, s.session id = some (.usage request p) → p.Local id request)
    (hs : Step s l s') : s'.Sound where
  ledger := h.refines hl hs |>.left
  requests {id request p} hp := by
    have he := h.refines hl hs |>.right.extends
    refine hs.usage_invariant (I := Usage.Phase.Sound) h.requests ?received ?acts ?others hp
    case received => intros; trivial
    case acts =>
      intro id request p a p' e hl' hp hn hd hi
      cases hn.writes
      case none ha hw =>
        rw [hd, hw]
        exact hn.sound h.ledger (hl hp) hi ha
      case commit _ check event record =>
        have ⟨_, ho, hr⟩ := hl hp
        subst hr
        have hb : s'.db.responses request.idempotencyKey =
            some (responseBody event check.plan.name) := by
          rw [hd, ← ho.key]
          exact congrFun (h.ledger.responses_usage hi ⟨_, rfl⟩) _ |>.trans <|
            Function.update_self ..
        exact ⟨rfl, .created hb ho.id ho.tenant⟩
    case others =>
      intro id request p ht hp hi
      cases p <;> simp only [Usage.Phase.Sound] at hi ⊢
      case conflicting | rereading => exact hasKey_mono hs hi
      case responding              => exact hi.imp_right (·.extends he)
      case answered                => exact hi.extends he
      all_goals
        intro hk
        rcases hs.hasKey hk with hk | ⟨id', request', _, check, event, record, rfl, hp', hk⟩
        · exact hi hk
        · refine absurd ?_ ht
          refine congrArg some <| ha.unique (x := .usageKey event.idempotencyKey) hp' hp ?_ ?_
          all_goals simp [holds, Session.held, Usage.Phase.held, hk]

end State.Sound

-- The invariants of every reachable state.
theorem sound (hi : db.Ledger) (h : engine.Reach (.boot db) s) : s.Sound :=
  h.invariant_of (J := fun s => s.Agrees holds ∧ ∀ {id request p},
      s.session id = some (.usage request p) → p.Local id request)
    (fun h => ⟨agrees h, locals h⟩) ⟨hi, by simp [Sessions.State.boot]⟩
    fun hj hs _ h => hs.step hj.left hj.right (Step.of_step h)

-- The committed responses are never changed.
theorem responses_extends {ok : State → Label → Prop} (hi : db.Ledger)
    (h : engine.Reach (.boot db) s) (hr : Transition.Reach engine.step ok s s') :
    WriteOnce.Extends s.db.responses s'.db.responses :=
  WriteOnce.reach_extends (fun s => s.db.responses)
    (fun hr' hs => have h := h.trans hr'.weaken
      sound hi h |>.refines (locals h) (Step.of_step hs) |>.right) hr

-- The foreign keys of requests in progress, and of their events.

theorem Step.tenant?_isSome {id : Uuid} (h : Step s l s') (ht : (s.db.tenant? id).isSome) :
    (s'.db.tenant? id).isSome :=
  Database.tenant?_isSome.mpr <| h.tenants.subset <| Database.tenant?_isSome.mp ht

theorem known_tenant (h : engine.Reach (.boot db) s) {id request p}
    (hs : s.session id = some (.usage request p)) :
    p ≠ .received → p.finished = false → (s.db.tenant? request.payload.tenantId).isSome := by
  refine usage_reach h (I := fun db _ request p => p ≠ .received → p.finished = false →
    (db.tenant? request.payload.tenantId).isSome) ?init ?received ?acts ?others hs
  case init     => simp [Sessions.State.boot]
  case received => intros; contradiction
  case acts =>
    intro s s' id request p a p' e _ _ hn hd _ hi
    cases hn.writes
    case none hw => rw [hd, hw]; exact hn.known hi
    case commit  => intros; rw [hd]; exact hi (by simp) rfl
  case others => intro _ _ _ _ _ _ _ hs _ _ _ hi hr hf; exact hs.tenant?_isSome <| hi hr hf

theorem event_tenant (hi : db.Referential) (h : engine.Reach (.boot db) s) : s.db.Referential := by
  refine h.invariant_of (I := fun s => s.db.Referential) (J := engine.Reach (.boot db)) id hi ?_
  intro s l s' h hi _ hs e he
  have hs := Step.of_step hs
  refine hs.tenant?_isSome ?_
  cases hs.mem_usageEvents he
  case inl he => exact hi e he
  case inr he =>
    obtain ⟨id, request, _, check, record, _, hp⟩ := he
    rw [locals h hp |>.right.left.tenant]
    exact known_tenant h hp (by simp) rfl

end Execution
