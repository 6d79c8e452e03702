import BillingEngine.Properties.Serialization

open Sessions QuotaEnforcer

-- A database in which it is clear for each tenant which subscription a request will lock.
structure Database.Unambiguous (db : Database) : Prop where
  rows   : db.WellFormed
  ledger : db.Ledger
  owners : ∀ s ∈ db.subscriptions, (db.tenant? s.tenantId).isSome
  latest : ∀ {tenantId sid sid'}, db.Latest tenantId sid → db.Latest tenantId sid' → sid = sid'

namespace Database.Unambiguous

variable {db db' : Database} {op : Operation}

theorem migrated {plans : List Plan} : (Database.migrated plans).Unambiguous where
  rows   := .migrated
  ledger := .empty rfl rfl
  owners := by simp [Database.migrated]
  latest := by simp [Latest, activeSubscriptions, Database.migrated]

-- A tenant that is created has the one subscription it is created with.
theorem operation (h : db.Unambiguous) (ho : op.apply db = some db') : db'.Unambiguous where
  rows   := Operation.rowChange ho |>.wellFormed h.rows
  ledger := (Operation.sameUsage ho).ledger h.ledger
  owners := by
    intro s hs
    have mono {id} (hi : (db.tenant? id).isSome) : (db'.tenant? id).isSome :=
      tenant?_isSome.mpr <| Operation.tenants ho |>.subset <| tenant?_isSome.mp hi
    cases Operation.Applies.of_apply ho
    case createTenant id _ _ hf hc =>
      obtain ⟨plan, _, rfl⟩ := Router.createTenant_ok hc
      cases List.mem_append.mp hs
      case inl hs => exact mono <| h.owners s hs
      case inr hs => rw [List.mem_singleton.mp hs]; exact tenant?_isSome.mpr <| by simp
    all_goals exact mono <| h.owners s hs
  latest := by
    intro tenantId sid sid' hl hl'
    by_cases ht : (db.tenant? tenantId).isSome
    case pos =>
      have ha := Operation.activeSubscriptions ho ht
      exact h.latest (Latest.congr ha |>.mp hl) (Latest.congr ha |>.mp hl')
    case neg =>
      have hnone : ∀ s ∈ db.subscriptions, s.tenantId ≠ tenantId :=
        fun s hs he => ht <| he ▸ h.owners s hs
      obtain ⟨s, hm, hi, _⟩    := hl
      obtain ⟨s', hm', hi', _⟩ := hl'
      obtain ⟨hm, he⟩   := mem_activeSubscriptions.mp hm
      obtain ⟨hm', he'⟩ := mem_activeSubscriptions.mp hm'
      cases Operation.Applies.of_apply ho
      case createTenant hc =>
        obtain ⟨plan, _, rfl⟩ := Router.createTenant_ok hc
        cases List.mem_append.mp hm
        case inl hm => exact absurd he.left <| hnone s hm
        case inr hm =>
          cases List.mem_append.mp hm'
          case inl hm' => exact absurd he'.left <| hnone s' hm'
          case inr hm' =>
            rw [← hi, ← hi', List.mem_singleton.mp hm, List.mem_singleton.mp hm']
      all_goals exact absurd he.left <| hnone s hm

theorem commit {event record} (h : db.Unambiguous) (hk : ¬db.HasKey event.idempotencyKey)
    (hc : Caches event record) : ((Write.usage event record).apply db).Unambiguous where
  rows   := ⟨h.rows.ids, h.rows.next⟩
  ledger := h.ledger.append hk hc
  owners := h.owners
  latest := h.latest

end Database.Unambiguous

namespace Execution

variable {db : Database} {s : State}

theorem unambiguous (hd : db.Unambiguous) (h : NoWebhook.Reach (.boot db) s) :
    s.db.Unambiguous := by
  refine h.invariant_of (I := fun s => s.db.Unambiguous) (J := NoWebhook.Reach (.boot db)) id hd ?_
  rintro s l s' hr hi - hst
  cases (Step.of_step hst).commits
  case none hd'     => rwa [hd']
  case webhook      => exact (no_webhook hr _ _ _ ‹_›).elim
  case operation ho => exact hi.operation ho
  case usage hs hd' =>
    rw [hd']
    exact hi.commit (sound hd.ledger hr.weaken |>.flushed_fresh hs rfl)
      ⟨_, locals hr.weaken hs |>.right.right⟩

theorem undisturbed (hd : db.Unambiguous) (h : NoWebhook.Reach (.boot db) s) :
    Undisturbed.Reach (.boot db) s := by
  refine h.imp fun hr _ => ?_
  unfold Undisturbed
  split
  case h_1 => intro _ _ _ _ _ _ hl hl'; exact unambiguous hd hr |>.latest hl hl'
  case h_2 => intro _ _ _ _ _ hs; exact (no_webhook hr _ _ _ hs).elim
  case h_3 => trivial

end Execution
