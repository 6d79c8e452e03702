import BillingEngine.Library.Termination
import BillingEngine.Properties.Consistency
import BillingEngine.Properties.Pricing

open Sessions MeteringEngine PricingCalculator

namespace Router

-- A stored response is never replayed with `201`.
theorem resultResponse_replay {r : IdempotencyRecord} :
    (resultResponse <| replay r).statusCode ≠ 201 := by
  by_cases h : r.statusCode = 201 <;> simp [resultResponse, replay, h]

theorem resultResponse_reread {db : Database} {key : String} :
    (resultResponse <| reread db key).statusCode ≠ 201 := by
  unfold reread
  split
  case h_1 => exact resultResponse_replay
  case h_2 => simp [resultResponse, conflict]

theorem raisedResponse_ne {raised : Raised} : (raisedResponse raised).statusCode ≠ 201 := by
  rcases raised with (_ | _) | _ <;> simp [raisedResponse, quotaResponse, internalError]

end Router

-- The body of an answer to a request whose event has been recorded by this request.
def HttpResponse.receipt : HttpResponse → Option UsageBody
  | ⟨201, .usage body, _⟩ => body
  | _                     => none

theorem HttpResponse.receipt_none {response : HttpResponse} (h : response.statusCode ≠ 201) :
    response.receipt = none := by
  unfold receipt
  split
  case h_1 => exact absurd rfl h
  case h_2 => rfl

namespace Usage

-- The receipt that a client has got, or that is on its way to it.
def Phase.stated : Phase → Option UsageBody
  | responding response | answered response => response.receipt
  | _                                       => none

-- Only a commit issues a receipt, and only a crash loses it.
theorem Next.stated {db id request p a p' e} (h : Next db id request p a p' e)
    (hc : a ≠ .commit) : p'.stated = p.stated ∨
      ∃ response, p = .responding response ∧ p' = .crashed := by
  cases h
  case replay  => exact .inl <| HttpResponse.receipt_none Router.resultResponse_replay
  case answer  => exact .inl <| HttpResponse.receipt_none Router.raisedResponse_ne
  case reread  => exact .inl <| HttpResponse.receipt_none Router.resultResponse_reread
  case commit  => contradiction
  case crash hf =>
    cases p
    case responding => exact .inr ⟨_, rfl, rfl⟩
    case answered   => cases hf
    all_goals exact .inl rfl
  all_goals exact .inl rfl

end Usage

-- The responses that have been stored with the events.
def Database.bodies (db : Database) : List UsageBody :=
  db.idempotencyRecords.map (·.responseBody)

namespace Session

def stated : Session → Option UsageBody
  | usage _ p  => p.stated
  | webhook .. => none

-- The receipt that the client of a request has got.
def receipt : Session → Option UsageBody
  | usage _ (.answered response) => response.receipt
  | _                            => none

-- The receipt that is on its way.
def due : Session → Option UsageBody
  | usage _ (.responding response) => response.receipt
  | _                              => none

theorem stated_eq (session : Session) : session.stated = session.receipt.or session.due := by
  rcases session with ⟨_, _ | _⟩ | _ <;> simp [stated, receipt, due, Usage.Phase.stated]

theorem receipt_or_due (session : Session) : session.receipt = none ∨ session.due = none := by
  rcases session with ⟨_, _ | _⟩ | _ <;> first | exact .inr rfl | exact .inl rfl

end Session

namespace Execution

def State.stated (s : State) (id : Uuid) : Option UsageBody :=
  (s.session id).bind Session.stated

def State.statements (s : State) (F : Finset Uuid) : Multiset UsageBody :=
  F.val.filterMap s.stated

-- What the clients of the requests in `F` have been told,
def State.receipts (s : State) (F : Finset Uuid) : Multiset UsageBody :=
  F.val.filterMap fun id => (s.session id).bind Session.receipt

-- and what they are about to be told.
def State.due (s : State) (F : Finset Uuid) : Multiset UsageBody :=
  F.val.filterMap fun id => (s.session id).bind Session.due

variable {db : Database} {s s' : State} {l : Label} {id : Uuid} {F : Finset Uuid}
  {lost : Multiset UsageBody}

theorem filterMap_or {f g : Uuid → Option UsageBody} (h : ∀ id, f id = none ∨ g id = none)
    (ids : Multiset Uuid) :
    ids.filterMap (fun id => (f id).or (g id)) = ids.filterMap f + ids.filterMap g := by
  induction ids using Multiset.induction
  case empty => rfl
  case cons id ids hi =>
    cases hf : f id <;> cases hg : g id
    case some.some => simpa [hf, hg] using h id
    case none.none => simpa [Multiset.filterMap_cons, hf, hg] using hi
    case some.none => simpa [Multiset.filterMap_cons, hf, hg] using hi
    case none.some => simpa [Multiset.filterMap_cons, hf, hg, add_left_comm] using hi

theorem State.statements_eq : s.statements F = s.receipts F + s.due F := by
  have hs : s.stated = fun id =>
      ((s.session id).bind Session.receipt).or ((s.session id).bind Session.due) := by
    funext id
    cases hid : s.session id <;> simp [stated, hid, Session.stated_eq]
  refine (congrArg F.val.filterMap hs).trans <| filterMap_or (fun id => ?_) F.val
  cases hid : s.session id
  case none         => exact .inl rfl
  case some session => exact session.receipt_or_due

theorem State.stated_update {holder} {session : Session} :
    State.stated ⟨db, holder, Function.update s.session id (some session)⟩ =
      Function.update s.stated id session.stated := by
  funext id'
  by_cases hi : id' = id
  case pos => subst hi; simp [stated]
  case neg => simp [stated, Function.update_of_ne hi]

-- A step issues no receipt, or the one for the event that it commits, or loses one.
inductive Step.Statements (s : State) : Label → State → Prop
  | none {l : Label} {s' : State} (stated : s'.stated = s.stated)
    (bodies : s'.db.bodies = s.db.bodies) : Statements s l s'
  | commit {id request p body} {s' : State} (session : s.session id = some (.usage request p))
    (unstated : s.stated id = .none) (stated : s'.stated = Function.update s.stated id (some body))
    (bodies : s'.db.bodies = s.db.bodies ++ [body]) : Statements s (.act id <| .usage .commit) s'
  | lose {id request response} {l : Label} {s' : State}
    (session : s.session id = some (.usage request <| .responding response))
    (crashed : s'.session id = some (.usage request .crashed))
    (stated : s'.stated = Function.update s.stated id .none)
    (bodies : s'.db.bodies = s.db.bodies) : Statements s l s'

theorem Step.statements (h : Step s l s') : Statements s l s' := by
  have same {holder db id session} (hs : session.stated = s.stated id) :
      State.stated ⟨db, holder, Function.update s.session id (some session)⟩ = s.stated := by
    rw [State.stated_update, hs, Function.update_eq_self]
  cases h
  case receive hi   => exact .none (same <| by simp [State.stated, hi]; rfl) rfl
  case deliver hi   => exact .none (same <| by simp [State.stated, hi]; rfl) rfl
  case operation ho =>
    refine .none rfl ?_
    rw [Database.bodies, (Operation.sameUsage ho).records]
    rfl
  case webhook hs hn _ =>
    refine .none (same <| by simp [State.stated, hs, Session.stated]) ?_
    cases hn.writes
    case none ha hw => rw [Program.perform, hw]
    case commit     => exact congrArg (List.map _) Database.applyWebhook_records
  case usage hs hn _ =>
    cases hn.writes
    case none ha hw =>
      rcases hn.stated ha with hp | ⟨response, rfl, rfl⟩
      · refine .none (same ?_) <| by rw [Program.perform, hw]
        simp [State.stated, hs, Session.stated, hp]
      · exact .lose hs (Function.update_self ..) State.stated_update <| by rw [Program.perform, hw]
    case commit =>
      refine .commit hs (by simp [State.stated, hs]; rfl) State.stated_update ?_
      simp [Program.perform, Program.write, engine, Write.apply, Database.bodies]

theorem Step.within (h : Step s l s') (hF : s'.Within F) : s.Within F := by
  intro id session hs
  have ⟨session', hs', _⟩ := h.persists hs
  exact hF id session' hs'

-- What has been stored has been stated, or it belongs to a request that has crashed since.
structure State.Accounted (s : State) (F : Finset Uuid) (bodies : List UsageBody)
    (lost : Multiset UsageBody) : Prop where
  crashed : ∀ body ∈ lost, ∃ request, s.session body.id = some (.usage request .crashed)
  stored  : s.statements F + lost + bodies = s.db.bodies

theorem State.statements_add {body : UsageBody} (hi : id ∈ F) (hn : s.stated id = none)
    (hs : s'.stated = Function.update s.stated id (some body)) :
    s'.statements F = body ::ₘ s.statements F := by
  obtain ⟨rest, hrest⟩ := Multiset.exists_cons_of_mem <| Finset.mem_val.mpr hi
  have ht : id ∉ rest := Multiset.nodup_cons.mp (hrest ▸ F.nodup) |>.left
  have hs' : s'.stated id = some body := by rw [hs, Function.update_self]
  rw [statements, statements, hrest, Multiset.filterMap_cons_none _ _ hn,
    Multiset.filterMap_cons_some _ _ _ hs', hs, filterMap_update ht]

theorem State.statements_remove {body : UsageBody} (hi : id ∈ F) (hb : s.stated id = some body)
    (hs : s'.stated = Function.update s.stated id none) :
    s.statements F = body ::ₘ s'.statements F := by
  have hs' : s.stated = Function.update s'.stated id (some body) := by
    rw [hs, Function.update_idem, ← hb, Function.update_eq_self]
  exact statements_add hi (by rw [hs, Function.update_self]) hs'

-- A receipt that is on its way is the request's own.
theorem State.Sound.due (hs : s.Sound) {request response}
    (hp : s.session id = some (.usage request <| .responding response)) :
    ∃ body, s.stated id = some body ∧ body.id = id := by
  obtain ⟨hc, ha⟩ := hs.requests hp
  obtain ⟨body, _, hb, hi, _⟩ := ha.own_event hc
  obtain ⟨_, _, _⟩ := response
  cases hc
  cases hb
  exact ⟨body, by simp [State.stated, hp]; rfl, hi⟩

theorem Step.accounted {bodies : List UsageBody} (h : Step s l s') (hs : s.Sound)
    (hF : s'.Within F) (ha : s.Accounted F bodies lost) : ∃ lost, s'.Accounted F bodies lost := by
  have hcrashed : ∀ body ∈ lost, ∃ request, s'.session body.id = some (.usage request .crashed) :=
    fun body hb =>
      have ⟨request, hp⟩ := ha.crashed body hb
      ⟨request, h.finished_eq hp rfl |>.trans hp⟩
  cases h.statements
  case none hst hb => exact ⟨lost, hcrashed, by rw [State.statements, hst, hb]; exact ha.stored⟩
  case commit id _ _ body hp hn hst hb =>
    refine ⟨lost, hcrashed, ?_⟩
    rw [State.statements_add (h.within hF id _ hp) hn hst, Multiset.cons_add, Multiset.cons_add,
      ha.stored, hb, Multiset.cons_coe, Multiset.coe_eq_coe]
    exact List.perm_append_singleton body _ |>.symm
  case lose id request _ hp hc hst hb =>
    obtain ⟨body, hbody, hi⟩ := hs.due hp
    refine ⟨body ::ₘ lost, Multiset.forall_mem_cons.mpr ⟨⟨request, hi ▸ hc⟩, hcrashed⟩, ?_⟩
    have hstored := ha.stored
    rw [State.statements_remove (h.within hF id _ hp) hbody hst] at hstored
    rw [hb, ← hstored, Multiset.add_cons, Multiset.cons_add,
      Multiset.cons_add, Multiset.cons_add]

-- Every response that has been stored is accounted for.
theorem accounted (hl : db.Ledger) (h : engine.Reach (.boot db) s) (hF : s.Within F) :
    ∃ lost, s.Accounted F db.bodies lost := by
  induction h
  case refl =>
    have hn : State.statements (.boot db) F = 0 :=
      Multiset.eq_zero_of_forall_notMem fun body hm => by
        simp [State.statements, State.stated, Sessions.State.boot] at hm
    exact ⟨0, by simp, by rw [hn, zero_add, zero_add]; rfl⟩
  case tail h _ hst hi =>
    replace hst := Step.of_step hst
    obtain ⟨lost, ha⟩ := hi <| hst.within hF
    exact hst.accounted (sound hl h) hF ha

end Execution

-- What a tenant is charged for the recorded events.
def Database.bill (db : Database) (tenantId : Uuid) : Int :=
  db.usageEvents.filter (·.tenantId = tenantId) |>.map (·.costCents) |>.sum

-- What the receipts say about this.
def charge (bodies : Multiset UsageBody) (tenantId : Uuid) : Int :=
  bodies.filter (·.tenantId = tenantId) |>.map (·.costCents) |>.sum

theorem charge_add {bodies bodies' : Multiset UsageBody} {tenantId : Uuid} :
    charge (bodies + bodies') tenantId = charge bodies tenantId + charge bodies' tenantId := by
  simp [charge]

theorem Database.Ledger.bill_eq {db : Database} {tenantId : Uuid} (hl : db.Ledger) :
    charge db.bodies tenantId = db.bill tenantId := by
  have hp := hl.paired
  rw [charge, Database.bill, Database.bodies]
  generalize db.usageEvents = es at hp
  generalize db.idempotencyRecords = rs at hp
  induction hp
  case nil => rfl
  case cons e r _ _ hc _ hi =>
    obtain ⟨_, rfl⟩ := hc
    simp only [Multiset.filter_coe, Multiset.map_coe, Multiset.sum_coe] at hi ⊢
    by_cases ht : e.tenantId = tenantId <;> simp [newRecord, responseBody, ht, hi]

namespace Execution

variable {db : Database} {s : State} {F : Finset Uuid} {lost : Multiset UsageBody}

-- The responses stored since `db` are those that the clients have been told or are about to be
-- told, but for those whose requests have crashed between their commit and their answer. So is what
-- the tenants are charged.
structure Billed (db : Database) (s : State) (F : Finset Uuid) (lost : Multiset UsageBody) :
    Prop where
  crashed : ∀ body ∈ lost, ∃ request, s.session body.id = some (.usage request .crashed)
  stored  : s.receipts F + s.due F + lost + db.bodies = s.db.bodies
  billed  : ∀ tenantId, charge (s.receipts F) tenantId + charge (s.due F) tenantId +
    charge lost tenantId + db.bill tenantId = s.db.bill tenantId

theorem billed_as_told (hl : db.Ledger) (h : engine.Reach (.boot db) s) (hF : s.Within F) :
    ∃ lost, Billed db s F lost := by
  obtain ⟨lost, ha⟩ := accounted hl h hF
  have hs := State.statements_eq ▸ ha.stored
  refine ⟨lost, ha.crashed, hs, fun tenantId => ?_⟩
  rw [← hl.bill_eq, ← (sound hl h).ledger.bill_eq, ← hs, charge_add, charge_add, charge_add]

-- The process of the second request dies before its answer is sent.
theorem billed_as_told_crash : ∃ (s : State) (lost : Multiset UsageBody),
    Billed (.migrated Plan.seeds) s {10, 11} lost ∧ s.db.bill 1 = 60 ∧
    charge (s.receipts {10, 11}) 1 = 30 ∧ charge lost 1 = 30 := by
  let as := .env (.createTenant 1 { name := "acme" } 0) ::
    checkLabels 10 (.aiToken 1 "a" 10000 (by decide)) (.stable _) 1 ++ commitLabels 10 2 ++
    checkLabels 11 (.aiToken 1 "b" 10000 (by decide)) (.stable _) 3 ++
    (commitLabels 11 4).take 3 ++ [.act 11 <| .usage .crash]
  have hrun : (Transition.run engine.step (.boot <| .migrated Plan.seeds) as).map (fun s =>
      (s.db.bill 1, charge (State.receipts s {10, 11}) 1, charge (State.due s {10, 11}) 1)) =
      some (60, 30, 0) := by decide +kernel
  obtain ⟨s, hs, heq⟩ := Option.map_eq_some_iff.mp hrun
  obtain ⟨hbill, hrest⟩ := Prod.ext_iff.mp heq
  obtain ⟨htold, hdue⟩ := Prod.ext_iff.mp hrest
  have hr : engine.Reach (.boot <| .migrated Plan.seeds) s := Transition.Reach.of_run hs |>.weaken
  have hF : s.Within {10, 11} := by
    intro id session hid
    by_contra hn
    have hnone : s.session id = none := session_eq_none hs <| by
      simp_all [as, checkLabels, commitLabels, Label.session?, eq_comm]
    cases hnone.symm.trans hid
  obtain ⟨lost, hb⟩ := billed_as_told (.empty rfl rfl) hr hF
  have hsum := hb.billed 1
  have hempty : (Database.migrated Plan.seeds).bill 1 = 0 := rfl
  simp only at hbill htold hdue
  exact ⟨s, lost, hb, hbill, htold, by omega⟩

end Execution

-- The events of a tenant that go on an invoice for the time from `start` to `stop`.
def Database.invoiced (db : Database) (tenantId : Uuid) (start stop : Instant) :
    List UsageEvent :=
  db.usageEvents.filter fun e => e.tenantId = tenantId ∧ start ≤ e.timestamp ∧ e.timestamp < stop

theorem Database.invoiced_metered {db : Database} {tenantId : Uuid} {start stop : Instant}
    (type : EventType) : QuotaEnforcer.usedQuantity db.usageEvents tenantId start stop type =
      Rows.total (·.totalQuantity) (·.eventType = type) (db.invoiced tenantId start stop) := by
  refine (Rows.total_of_filter fun e _ => ?_).symm
  unfold QuotaEnforcer.Counted
  tauto

namespace UsageEvent

variable {settings : Settings} {e : UsageEvent} {events : List UsageEvent}

-- Calls carry no tokens, so that every cost is the one of the tokens.
theorem Accounts.cost (h : e.Accounts settings) :
    e.costCents = calculateCostCents settings e.tokens := by
  cases ht : e.eventType
  case apiCall =>
    obtain ⟨_, hu, hc⟩ := h.apiCall ht
    rw [hu, hc]
    simp [calculateCostCents, calculateCostMicroCents]
  case aiToken => rw [(h.aiToken ht).right, calculateCostCents_eq_floor]

theorem Accounts.microCents (h : e.Accounts settings) (ht : ¬e.eventType = .aiToken) :
    calculateCostMicroCents settings e.tokens = 0 := by
  have ht : e.eventType = .apiCall := by cases he : e.eventType <;> simp_all
  simp [(h.apiCall ht).right.left, calculateCostMicroCents]

-- The costs of the events, of their tokens, and of all their tokens together.

def tokenEvents (events : List UsageEvent) : List UsageEvent :=
  events.filter (·.eventType = .aiToken)

theorem sum_tokenEvents {f : UsageEvent → Int}
    (hf : ∀ e ∈ events, ¬e.eventType = .aiToken → f e = 0) :
    ((tokenEvents events).map f).sum = (events.map f).sum := by
  have hz : ((events.filter fun e => ¬e.eventType = .aiToken).map f).sum = 0 := by
    refine List.sum_eq_zero fun x hx => ?_
    obtain ⟨e, he, rfl⟩ := List.mem_map.mp hx
    obtain ⟨he, ht⟩ := List.mem_filter.mp he
    exact hf e he <| of_decide_eq_true ht
  have hs := List.sum_map_filter_add_sum_map_filter_not (·.eventType = .aiToken) f events
  rwa [hz, add_zero] at hs

theorem Accounts.charged (h : ∀ e ∈ events, e.Accounts settings) :
    (events.map (·.costCents)).sum = (((tokenEvents events).map fun e =>
      calculateCostMicroCents settings e.tokens).map (· / microCentsPerCent)).sum := by
  have hz : ∀ e ∈ events, ¬e.eventType = .aiToken → e.costCents = 0 := by
    intro e he ht
    rw [(h e he).cost, calculateCostCents, (h e he).microCents ht, Int.zero_ediv]
  rw [← sum_tokenEvents hz, List.map_map]
  refine congrArg List.sum <| List.map_congr_left fun e he => ?_
  exact (h e <| List.mem_of_mem_filter he).cost

theorem Accounts.aggregated (h : ∀ e ∈ events, e.Accounts settings) :
    calculateCostCents settings (.sum <| events.map (·.tokens)) =
      ((tokenEvents events).map fun e => calculateCostMicroCents settings e.tokens).sum /
        microCentsPerCent := by
  rw [calculateCostCents_sum, List.map_map, sum_tokenEvents fun e he => (h e he).microCents]
  rfl

-- The bill is never above the price of all tokens together, and less than a cent for each event
-- below it.
theorem reconciles (h : ∀ e ∈ events, e.Accounts settings) :
    let charged := (events.map (·.costCents)).sum
    let aggregated := calculateCostCents settings <| .sum <| events.map (·.tokens)
    charged ≤ aggregated ∧ aggregated ≤ charged + ((tokenEvents events).length - 1 : Nat) := by
  intro charged aggregated
  have hc : charged = _    := Accounts.charged h
  have ha : aggregated = _ := Accounts.aggregated h
  have hd : 0 < microCentsPerCent := by decide
  rw [hc, ha]
  refine ⟨Floor.sum_le hd, ?_⟩
  by_cases ht : tokenEvents events = []
  case pos => simp [ht]
  case neg =>
    have hn : ((tokenEvents events).map fun e => calculateCostMicroCents settings e.tokens) ≠ [] :=
      mt List.map_eq_nil_iff.mp ht
    have hl := Floor.le_sum hd hn
    rw [List.length_map] at hl
    have hlen : 0 < (tokenEvents events).length := List.length_pos_iff.mpr ht
    omega

-- The metered quantities are those on the invoice.

theorem Accounts.metered (h : e.Accounts settings) :
    (if e.eventType = .aiToken then e.totalQuantity else 0) = e.tokens.totalTokens := by
  cases ht : e.eventType
  case apiCall => simp [(h.apiCall ht).right.left, TokenUsage.totalTokens]
  case aiToken => rw [(h.aiToken ht).left]; rfl

theorem Accounts.metered_tokens (h : ∀ e ∈ events, e.Accounts settings) :
    Rows.total (·.totalQuantity) (·.eventType = .aiToken) events =
      (TokenUsage.sum <| events.map (·.tokens)).totalTokens := by
  induction events
  case nil => rfl
  case cons e events hi =>
    obtain ⟨he, h⟩ := List.forall_mem_cons.mp h
    rw [Rows.total_cons, he.metered, hi h]
    simp only [TokenUsage.sum, TokenUsage.totalTokens, List.map_cons, List.sum_cons]
    omega

theorem Accounts.metered_calls (h : ∀ e ∈ events, e.Accounts settings) :
    Rows.total (·.totalQuantity) (·.eventType = .apiCall) events =
      (events.filter (·.eventType = .apiCall)).length := by
  induction events
  case nil => rfl
  case cons e events hi =>
    obtain ⟨he, h⟩ := List.forall_mem_cons.mp h
    rw [Rows.total_cons, hi h]
    by_cases ht : e.eventType = .apiCall
    case pos => simp [ht, (he.apiCall ht).left, Nat.add_comm]
    case neg => simp [ht]

end UsageEvent

namespace Execution

-- All requests of the run are priced with the same settings.
def Priced (settings : Settings) (_ : State) : Label → Prop
  | .start _ (.usage request _) => request.settings = settings
  | _                           => True

variable {db : Database} {s : State} {settings : Settings}

theorem Priced.settings_eq (h : Transition.Reach engine.step (Priced settings) (.boot db) s)
    {id request p} (hs : s.session id = some (.usage request p)) : request.settings = settings := by
  induction h generalizing p
  case refl => cases hs
  case tail _ _ l _ hp hst hi =>
    replace hst := Step.of_step hst
    by_cases ht : l.session? = some id
    case neg => exact hi <| (hst.session_eq ht).symm.trans hs
    case pos =>
      cases hst <;> cases ht
      case receive =>
        simp only [Function.update_self] at hs
        cases hs
        exact hp
      case deliver => simp at hs
      case usage hs' _ _ =>
        simp only [Program.perform, Function.update_self] at hs
        cases hs
        exact hi hs'
      case webhook => simp [Program.perform] at hs

-- The invoice of a tenant for any span of time: the floored costs of the events add up to less than
-- a cent for each event below the price of all of its tokens, which are the tokens metered.
theorem invoice_reconciles (hu : db.NoUsage)
    (h : Transition.Reach engine.step (Priced settings) (.boot db) s) (tenantId : Uuid)
    (start stop : Instant) :
    let events := s.db.invoiced tenantId start stop
    let tokens := TokenUsage.sum <| events.map (·.tokens)
    let charged := (events.map (·.costCents)).sum
    charged ≤ calculateCostCents settings tokens ∧
    calculateCostCents settings tokens ≤
      charged + ((events.filter (·.eventType = .aiToken)).length - 1 : Nat) ∧
    QuotaEnforcer.usedQuantity s.db.usageEvents tenantId start stop .aiToken = tokens.totalTokens ∧
    QuotaEnforcer.usedQuantity s.db.usageEvents tenantId start stop .apiCall =
      (events.filter (·.eventType = .apiCall)).length := by
  intro events tokens charged
  have ha : ∀ e ∈ events, e.Accounts settings := by
    intro e he
    obtain ⟨request, ho, ha⟩ := event_accounts hu h.weaken <| List.mem_of_mem_filter he
    obtain ⟨_, _, ho, _⟩ := ho.told
    rwa [Priced.settings_eq h ho] at ha
  obtain ⟨hle, hge⟩ := UsageEvent.reconciles ha
  exact ⟨hle, hge, (Database.invoiced_metered _).trans <| UsageEvent.Accounts.metered_tokens ha,
    (Database.invoiced_metered _).trans <| UsageEvent.Accounts.metered_calls ha⟩

-- Two events of 0.6 cents each.
theorem invoice_reconciles_pair : ∃ s : State,
    (s.db.invoiced 1 0 10).map (·.costCents) = [0, 0] ∧
    calculateCostCents {} (.sum <| (s.db.invoiced 1 0 10).map (·.tokens)) = 1 ∧
    calculateCostCents {} (.sum <| (s.db.invoiced 1 0 10).map (·.tokens)) ≤
      ((s.db.invoiced 1 0 10).map (·.costCents)).sum +
        (((s.db.invoiced 1 0 10).filter (·.eventType = .aiToken)).length - 1 : Nat) := by
  let as := .env (.createTenant 1 { name := "acme" } 0) ::
    checkLabels 10 (.aiToken 1 "a" 200 (by decide)) (.stable _) 1 ++ commitLabels 10 2 ++
    checkLabels 11 (.aiToken 1 "b" 200 (by decide)) (.stable _) 3 ++ commitLabels 11 4
  have hrun : (Transition.run engine.step (.boot <| .migrated Plan.seeds) as).map
      (fun s => ((s.db.invoiced 1 0 10).map (·.costCents),
        calculateCostCents {} (.sum <| (s.db.invoiced 1 0 10).map (·.tokens)))) =
      some ([0, 0], 1) := by decide +kernel
  obtain ⟨s, hs, heq⟩ := Option.map_eq_some_iff.mp hrun
  obtain ⟨hcosts, hsum⟩ := Prod.ext_iff.mp heq
  have hr : Transition.Reach engine.step (Priced {}) (.boot <| .migrated Plan.seeds) s :=
    .of_run_all hs <| by simp [as, checkLabels, commitLabels, Priced, UsageRequest.aiToken]
  exact ⟨s, hcosts, hsum, invoice_reconciles ⟨rfl, rfl⟩ hr 1 0 10 |>.right.left⟩

end Execution
