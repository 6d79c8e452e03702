import Mathlib.Algebra.Ring.Nat
import Mathlib.Data.List.Sort
import Mathlib.Data.List.Nodup

-- Tables as lists of rows: sums over selected rows, `ORDER BY`, and access by a key column.
namespace Rows

variable {ρ κ : Type}

-- `SUM(q) FILTER (WHERE p)`, with the sum over no rows being zero.
def total (q : ρ → Nat) (p : ρ → Prop) [DecidablePred p] (rows : List ρ) : Nat :=
  rows.filter p |>.map q |>.sum

section Total

variable {q : ρ → Nat} {p p' : ρ → Prop} [DecidablePred p] [DecidablePred p'] {rows rows' : List ρ}

theorem total_cons {r : ρ} : total q p (r :: rows) = (if p r then q r else 0) + total q p rows := by
  by_cases h : p r <;> simp [total, h]

@[simp]
theorem total_append : total q p (rows ++ rows') = total q p rows + total q p rows' := by
  simp [total]

@[simp]
theorem total_singleton {r : ρ} : total q p [r] = if p r then q r else 0 := by
  by_cases h : p r <;> simp [total, h]

theorem total_congr (h : ∀ r ∈ rows, p r ↔ p' r) : total q p rows = total q p' rows := by
  unfold total
  rw [List.filter_congr]
  intro r hr
  simp [h r hr]

theorem total_eq_zero (h : ∀ r ∈ rows, ¬p r) : total q p rows = 0 := by
  have hn : rows.filter p = [] := List.filter_eq_nil_iff.mpr fun r hr => by simpa using h r hr
  simp [total, hn]

-- Rows are counted once, whichever of the two conditions they meet.
theorem total_or (h : ∀ r ∈ rows, p r → ¬p' r) :
    total q (fun r => p r ∨ p' r) rows = total q p rows + total q p' rows := by
  induction rows
  case nil => rfl
  case cons r rows hi =>
    obtain ⟨hr, h⟩ := List.forall_mem_cons.mp h
    rw [total_cons, total_cons, total_cons, hi h]
    by_cases hp : p r
    case pos => simp only [hp, hr hp, true_or, if_true, if_false]; omega
    case neg => simp only [hp, false_or, if_false]; omega

-- The sum over the rows that have been selected before.
theorem total_of_filter {keep : ρ → Prop} [DecidablePred keep]
    (h : ∀ r ∈ rows, p' r ↔ p r ∧ keep r) : total q p (rows.filter keep) = total q p' rows := by
  unfold total
  rw [List.filter_filter, List.filter_congr]
  intro r hr
  simp [h r hr]

-- Rows that do not count can be left out.
theorem total_filter {keep : ρ → Prop} [DecidablePred keep] (h : ∀ r ∈ rows, p r → keep r) :
    total q p (rows.filter keep) = total q p rows :=
  total_of_filter fun r hr => ⟨fun hp => ⟨hp, h r hr hp⟩, And.left⟩

end Total

section Filter

variable {p : ρ → Prop} [DecidablePred p] {rows : List ρ} {r : ρ}

theorem of_filter_singleton (h : rows.filter p = [r]) : r ∈ rows ∧ p r := by
  have hm := List.mem_filter.mp <| h ▸ List.mem_singleton_self r
  exact ⟨hm.left, of_decide_eq_true hm.right⟩

theorem filter_eq_nil : rows.filter p = [] ↔ ¬∃ r ∈ rows, p r := by
  simp

end Filter

theorem nodup_append_key {key : ρ → κ} {rows : List ρ} {r : ρ} (h : (rows.map key).Nodup)
    (hr : key r ∉ rows.map key) : ((rows ++ [r]).map key).Nodup := by
  rw [List.map_append, List.map_singleton]
  exact h.append (List.nodup_singleton _) <| List.disjoint_singleton.mpr hr

-- `ORDER BY key DESC`. The order of rows with equal keys is left open, and may differ from one
-- statement to the next.
structure Descending [LinearOrder κ] (key : ρ → κ) where
  sort   : List ρ → List ρ
  perm   : ∀ rows, (sort rows).Perm rows
  sorted : ∀ rows, (sort rows).Pairwise (key · ≥ key ·)

namespace Descending

variable [LinearOrder κ] {key : ρ → κ}

-- Rows with equal keys stay in the order of the table.
def stable (key : ρ → κ) : Descending key where
  sort := List.insertionSort (key · ≥ key ·)
  perm := List.perm_insertionSort _
  sorted :=
    have : Std.Total (key · ≥ key · : ρ → ρ → Prop) := ⟨fun a b => le_total (key b) (key a)⟩
    have : IsTrans ρ (key · ≥ key ·) := ⟨fun _ _ _ h h' => le_trans h' h⟩
    List.pairwise_insertionSort _

variable {o : Descending key} {rows : List ρ} {r r' : ρ}

@[simp]
theorem mem_sort : r ∈ o.sort rows ↔ r ∈ rows :=
  o.perm rows |>.mem_iff

theorem head_max (h : (o.sort rows).head? = some r) (hm : r' ∈ rows) : key r' ≤ key r := by
  obtain ⟨tl, ht⟩ := List.head?_eq_some_iff.mp h
  have hs := o.sorted rows
  rw [← mem_sort (o := o), ht] at hm
  rw [ht] at hs
  cases hm
  case head   => exact le_refl _
  case tail h => exact List.rel_of_pairwise_cons hs h

theorem head_mem (h : (o.sort rows).head? = some r) : r ∈ rows :=
  mem_sort.mp <| List.mem_of_mem_head? h

theorem head_none : (o.sort rows).head? = none ↔ rows = [] := by
  rw [List.head?_eq_none_iff]
  constructor
  case mp  => intro h; exact List.Perm.nil_eq (h ▸ o.perm rows) |>.symm
  case mpr => rintro rfl; exact List.Perm.eq_nil (o.perm [])

end Descending

section Keys

variable [DecidableEq κ] {key : ρ → κ} {rows : List ρ} {r : ρ} {k : κ}

theorem find?_key_mem (h : rows.find? (key · = k) = some r) : r ∈ rows ∧ key r = k :=
  ⟨List.mem_of_find?_eq_some h, by simpa using List.find?_some h⟩

-- Where `key` is unique, looking up the key of a row finds that row.
theorem find?_key (hn : rows.map key |>.Nodup) (hm : r ∈ rows) :
    rows.find? (key · = key r) = some r := by
  cases h : rows.find? (key · = key r)
  case none => simpa using List.find?_eq_none.mp h r hm
  case some r' =>
    have ⟨hm', hk⟩ := find?_key_mem h
    exact congrArg some <| List.inj_on_of_nodup_map hn hm' hm hk

theorem find?_filter_key {keep : ρ → Prop} [DecidablePred keep]
    (h : ∀ r ∈ rows, key r = k → keep r) :
    (rows.filter keep).find? (key · = k) = rows.find? (key · = k) := by
  induction rows
  case nil => rfl
  case cons r rows hi =>
    have ht := hi fun r hr => h r <| .tail _ hr
    by_cases hk : key r = k
    case pos => simp [hk, h r (.head _) hk]
    case neg => by_cases hp : keep r <;> simp [hk, hp, ht]

theorem filter_key (hn : rows.map key |>.Nodup) (hm : r ∈ rows) (hk : key r = k) :
    rows.filter (key · = k) = [r] := by
  induction rows
  case nil => cases hm
  case cons r' rows hi =>
    have ⟨hf, hn⟩ := List.nodup_cons.mp hn
    cases hm
    case head =>
      have he : rows.filter (key · = k) = [] := by
        refine List.filter_eq_nil_iff.mpr fun r' hr' hk' => hf ?_
        exact hk.trans (of_decide_eq_true hk').symm ▸ List.mem_map_of_mem hr'
      simp [hk, he]
    case tail hm =>
      have hne : key r' ≠ k := fun he => hf <| he.trans hk.symm ▸ List.mem_map_of_mem hm
      simp [hne, hi hn hm]

theorem length_filter_key (hn : rows.map key |>.Nodup) :
    (rows.filter (key · = k)).length ≤ 1 := by
  by_cases h : ∃ r ∈ rows, key r = k
  case pos => obtain ⟨r, hm, hk⟩ := h; simp [filter_key hn hm hk]
  case neg => simp [filter_eq_nil.mpr h]

-- `UPDATE ... SET f WHERE key = k`
def modify (key : ρ → κ) (k : κ) (f : ρ → ρ) (rows : List ρ) : List ρ :=
  rows.map fun r => if key r = k then f r else r

theorem modify_cons {f : ρ → ρ} :
    modify key k f (r :: rows) = (if key r = k then f r else r) :: modify key k f rows :=
  rfl

theorem modify_map {β : Type} {g : ρ → β} {f : ρ → ρ} (hf : ∀ r, g (f r) = g r) :
    (modify key k f rows).map g = rows.map g := by
  rw [modify, List.map_map]
  apply List.map_congr_left fun r _ => ?_
  simp only [Function.comp]
  split <;> simp [hf]

theorem mem_modify {f : ρ → ρ} :
    r ∈ modify key k f rows ↔ ∃ r' ∈ rows, r = if key r' = k then f r' else r' := by
  simp [modify, eq_comm]

theorem find?_modify {f : ρ → ρ} (hf : ∀ r, key (f r) = key r) (k' : κ) :
    (modify key k f rows).find? (key · = k') =
      (rows.find? (key · = k')).map fun r => if key r = k then f r else r := by
  have hp : (key · = k' : ρ → Bool) ∘ (fun r => if key r = k then f r else r) = (key · = k') := by
    funext r
    simp only [Function.comp]
    split <;> simp [hf]
  rw [modify, List.find?_map, hp]

theorem modify_congr {f f' : ρ → ρ} (h : ∀ r ∈ rows, key r = k → f r = f' r) :
    modify key k f rows = modify key k f' rows := by
  refine List.map_congr_left fun r hr => ?_
  split
  case isTrue hk => exact h r hr hk
  case isFalse   => rfl

theorem modify_eq_self {f : ρ → ρ} (h : ∀ r ∈ rows, key r = k → f r = r) :
    modify key k f rows = rows := by
  have hc : modify key k f rows = modify key k (fun r => r) rows := modify_congr h
  rw [hc]
  simp [modify]

-- Updated rows that no longer meet the condition are left out.
theorem filter_modify {f : ρ → ρ} {p : ρ → Prop} [DecidablePred p]
    (h : ∀ r ∈ rows, key r = k → ¬p (f r)) :
    (modify key k f rows).filter p = (rows.filter p).filter (key · ≠ k) := by
  induction rows
  case nil => rfl
  case cons r rows hi =>
    have ht := hi fun r hr => h r (.tail _ hr)
    simp only [modify, List.map_cons] at ht ⊢
    by_cases hk : key r = k
    case pos => by_cases hp : p r <;> simp [hk, hp, h r (.head _) hk, ht]
    case neg => by_cases hp : p r <;> simp [hk, hp, ht]

theorem filter_modify_iff {f : ρ → ρ} {p : ρ → Prop} [DecidablePred p] (h : ∀ r, p (f r) ↔ p r) :
    (modify key k f rows).filter p = modify key k f (rows.filter p) := by
  have hp : (p · : ρ → Bool) ∘ (fun r => if key r = k then f r else r) = (p ·) := by
    funext r
    simp only [Function.comp]
    split <;> simp [h]
  rw [modify, List.filter_map, hp]
  rfl

-- Rows under another key.
theorem filter_modify_ne {f : ρ → ρ} (hf : ∀ r, key (f r) = key r) (hk : k ≠ k') :
    (modify key k f rows).filter (key · = k') = rows.filter (key · = k') := by
  induction rows
  case nil => rfl
  case cons r rows hi =>
    rw [modify_cons]
    by_cases hr : key r = k
    case pos => simp [hr, hf, hk, hi]
    case neg => simp [List.filter_cons, hr, hi]

theorem modify_comm {f g : ρ → ρ} (hf : ∀ r, key (f r) = key r) (hg : ∀ r, key (g r) = key r)
    (h : k = k' → ∀ r, f (g r) = g (f r)) :
    modify key k f (modify key k' g rows) = modify key k' g (modify key k f rows) := by
  simp only [modify, List.map_map]
  refine List.map_congr_left fun r _ => ?_
  simp only [Function.comp]
  have hfk : key (f r) = k' ↔ key r = k' := by rw [hf]
  have hgk : key (g r) = k ↔ key r = k   := by rw [hg]
  by_cases hk : key r = k
  case neg =>
    rw [if_neg hk]
    split
    case isTrue  => exact if_neg <| hgk.not.mpr hk
    case isFalse => rfl
  case pos =>
    rw [if_pos hk]
    by_cases hk' : key r = k'
    case neg => rw [if_neg hk', if_pos hk, if_neg <| hfk.not.mpr hk']
    case pos =>
      rw [if_pos hk', if_pos <| hgk.mpr hk, if_pos <| hfk.mpr hk']
      exact h (hk.symm.trans hk') r

end Keys

-- `UNIQUE` columns, in which `NULL` may occur any number of times.
section Unique

variable {key : ρ → Option κ} {rows : List ρ} {r : ρ} {k : κ}

theorem filter_unique [DecidableEq κ] (hn : rows.filterMap key |>.Nodup) (hm : r ∈ rows)
    (hk : key r = some k) :
    rows.filter (key · = some k) = [r] := by
  induction rows
  case nil => cases hm
  case cons r' rows hi =>
    have hfilter (hf : k ∉ rows.filterMap key) : rows.filter (key · = some k) = [] :=
      List.filter_eq_nil_iff.mpr fun r hr hk =>
        hf <| List.mem_filterMap.mpr ⟨r, hr, of_decide_eq_true hk⟩
    cases hr : key r'
    case none =>
      rw [List.filterMap_cons_none hr] at hn
      cases hm
      case head    => cases hr.symm.trans hk
      case tail hm => simp [hr, hi hn hm]
    case some k' =>
      rw [List.filterMap_cons_some hr] at hn
      have ⟨hf, hn⟩ := List.nodup_cons.mp hn
      cases hm
      case head =>
        cases hr.symm.trans hk
        simp [hr, hfilter hf]
      case tail hm =>
        have hne : k' ≠ k := fun he => hf <| List.mem_filterMap.mpr ⟨r, hm, he ▸ hk⟩
        simp [hr, hne, hi hn hm]

theorem length_filter_unique [DecidableEq κ] (hn : rows.filterMap key |>.Nodup) :
    (rows.filter (key · = some k)).length ≤ 1 := by
  by_cases h : ∃ r ∈ rows, key r = some k
  case pos => obtain ⟨r, hm, hk⟩ := h; simp [filter_unique hn hm hk]
  case neg => simp [filter_eq_nil.mpr h]

theorem filterMap_modify {ι : Type} [DecidableEq ι] {id : ρ → ι} {i : ι} {f : ρ → ρ}
    (hf : ∀ r, key (f r) = key r) : (modify id i f rows).filterMap key = rows.filterMap key := by
  rw [modify, List.filterMap_map]
  refine List.filterMap_congr fun r _ => ?_
  simp only [Function.comp]
  split <;> simp [hf]

-- A value which is not in the column can be given to a row.
theorem nodup_filterMap_modify {ι : Type} [DecidableEq ι] {id : ρ → ι} {i : ι} {f : ρ → ρ}
    (hi : rows.map id |>.Nodup) (hn : rows.filterMap key |>.Nodup) (hf : ∀ r ∈ rows, key r ≠ some k)
    (hk : ∀ r, key (f r) = some k) : (modify id i f rows).filterMap key |>.Nodup := by
  induction rows
  case nil => exact hn
  case cons r rows hi' =>
    have ⟨hr, hi⟩ := List.nodup_cons.mp hi
    have hf' r (hr : r ∈ rows) := hf r <| .tail _ hr
    have htail : rows.filterMap key |>.Nodup := by
      cases h : key r
      case none => rwa [List.filterMap_cons_none h] at hn
      case some =>
        rw [List.filterMap_cons_some h] at hn
        exact List.nodup_cons.mp hn |>.right
    by_cases hid : id r = i
    case pos =>
      have hsame : modify id i f rows = rows :=
        modify_eq_self fun r' hr' he => absurd (hid.trans he.symm ▸ List.mem_map_of_mem hr') hr
      rw [modify_cons, if_pos hid, hsame, List.filterMap_cons_some (hk r)]
      refine List.nodup_cons.mpr ⟨fun hm => ?_, htail⟩
      have ⟨r', hr', hk'⟩ := List.mem_filterMap.mp hm
      exact hf' r' hr' hk'
    case neg =>
      have hmod := hi' hi htail hf'
      rw [modify_cons, if_neg hid]
      cases h : key r
      case none => rwa [List.filterMap_cons_none h]
      case some k' =>
        rw [List.filterMap_cons_some h] at hn ⊢
        refine List.nodup_cons.mpr ⟨fun hm => ?_, hmod⟩
        have ⟨r', hr', hk'⟩ := List.mem_filterMap.mp hm
        obtain ⟨r₀, hr₀, rfl⟩ := mem_modify.mp hr'
        split at hk'
        case isTrue  => exact hf r (.head _) <| h.trans <| hk'.symm.trans (hk r₀)
        case isFalse =>
          exact List.nodup_cons.mp hn |>.left <| List.mem_filterMap.mpr ⟨r₀, hr₀, hk'⟩

end Unique
end Rows
