import Mathlib.Order.WithBot
import Mathlib.Data.Prod.Lex
import Mathlib.Data.String.Basic
import Mathlib.Data.List.Sort
import Carbide.Lib.SortedMap
import Carbide.Lib.Fold

/-!
# Merging health reports

`HealthReport::merge` (crates/health-report/src/lib.rs:245-294) folds one
report into another, key by key: the key of a probe is its `(id, target)`.
The successes of both reports are collected in a `BTreeSet` and every key that
either report raises an alert for is removed from it; the alerts of `self` are
stored in a `BTreeMap` by key, each replacing one stored before it, and each
alert of `other` is merged into the stored alert of its key
(`HealthProbeAlert::merge`, lib.rs:502-526: the classifications become the
sorted union, the messages are joined, the earlier `in_alert_since` is kept) or
stored as it is when there is none. `derive_aggregate_health`
(crates/api-model/src/machine/mod.rs:528-639) folds the reports of a host into
`HealthReport::empty` by successive merges; `mergeAll` is that fold.

Timestamps are `Int` (nanoseconds since the epoch, compared as `DateTime<Utc>`
compares them); probe ids and classifications are their strings, ordered as
the derived `Ord` of the newtypes orders them. The `source` and `triggered_by`
fields are not read by `merge` and are left out.

* `find?_mergeAll`: after the fold, the alert under a key is the merge, in
  fold order, of every alert reported under that key (`combine`);
* `mem_mergeAll_successes`: a key is a success exactly when some report says
  so and none raises an alert for it;
* `observedAt_mergeAll`: the time of the result is the least of `now` and of
  the times present;
* `combine_withoutText_perm` and `mergeAll_successes_perm`: apart from the text
  of the messages, which are joined in fold order, the result does not depend
  on the order of the reports.

An alert reported under one key only is stored as it is, so its
classifications are not sorted or deduplicated: only a key with two alerts or
more is merged (`classifications_of_combine`).
-/
namespace Carbide.Health

open Carbide.Lib

/-- `(HealthProbeId, Option<String>)`, ordered as the derived `Ord` of the
tuple orders it: by id, then by target with `None` first. -/
abbrev ProbeKey := String ×ₗ WithBot String

/-- mirrors lib.rs:347-382. -/
structure HealthProbeAlert where
  id : String
  target : Option String
  inAlertSince : Option Int
  message : String
  tenantMessage : Option String
  classifications : List String
  deriving DecidableEq, Repr

/-- mirrors lib.rs:531-550. -/
structure HealthProbeSuccess where
  id : String
  target : Option String
  deriving DecidableEq, Repr

/-- mirrors lib.rs:31-55, without `source` and `triggered_by`. -/
structure HealthReport where
  observedAt : Option Int
  successes : List HealthProbeSuccess
  alerts : List HealthProbeAlert
  deriving DecidableEq, Repr

def HealthProbeAlert.key (a : HealthProbeAlert) : ProbeKey := toLex (a.id, a.target)

def HealthProbeSuccess.key (s : HealthProbeSuccess) : ProbeKey := toLex (s.id, s.target)

/-- The success of a key: `.map(|(id, target)| HealthProbeSuccess { id, target })`. -/
def HealthProbeSuccess.ofKey (k : ProbeKey) : HealthProbeSuccess := ⟨(ofLex k).1, (ofLex k).2⟩

/-- `HealthReport::empty` at the time `now` of `Utc::now()`.
mirrors lib.rs:71-79 -/
def HealthReport.empty (now : Int) : HealthReport := ⟨some now, [], []⟩

/-- The `BTreeSet` of both lists, in order.
mirrors lib.rs:323-330 -/
def mergeClassifications (c1 c2 : List String) : List String :=
  ((SortedMap.ofKeys c1).extend c2).keys

/-- The two matches on a pair of options keep the least time present:
`Option.merge min`.
mirrors lib.rs:506-526 -/
def HealthProbeAlert.merge (self other : HealthProbeAlert) : HealthProbeAlert :=
  { self with
    classifications := mergeClassifications self.classifications other.classifications
    message :=
      if self.message.isEmpty then other.message
      else if !other.message.isEmpty then self.message ++ "\n" ++ other.message
      else self.message
    tenantMessage :=
      match self.tenantMessage, other.tenantMessage with
      | some m1, some m2 => some (m1 ++ "\n" ++ m2)
      | some m1, none => some m1
      | none, some m2 => some m2
      | none, none => none
    inAlertSince := Option.merge min other.inAlertSince self.inAlertSince }

/-- Each loop over the alerts updates the set of successes and the map of
alerts together.
mirrors lib.rs:253-294 -/
def HealthReport.merge (self other : HealthReport) : HealthReport :=
  let observedAt := Option.merge min self.observedAt other.observedAt
  let successes := (SortedMap.ofKeys (self.successes.map (·.key))).extend
    (other.successes.map (·.key))
  -- an alert shadows a success of its key; one of `self` replaces the alert stored
  let acc := self.alerts.foldl
    (fun acc alert => (acc.1.erase alert.key, acc.2.insert alert.key alert))
    (successes, SortedMap.empty)
  -- one of `other` is merged into it (`Entry::Occupied`), or stored (`Entry::Vacant`)
  let acc := other.alerts.foldl
    (fun acc alert =>
      (acc.1.erase alert.key, acc.2.insertWith HealthProbeAlert.merge alert.key alert))
    acc
  { observedAt, successes := acc.1.keys.map HealthProbeSuccess.ofKey, alerts := acc.2.values }

/-- The reports merged in turn into `HealthReport::empty`, as
`derive_aggregate_health` merges them. -/
def mergeAll (now : Int) (reports : List HealthReport) : HealthReport :=
  reports.foldl HealthReport.merge (HealthReport.empty now)

/-! ## One merge -/

namespace HealthProbeAlert

theorem classifications_merge (a b : HealthProbeAlert) :
    (a.merge b).classifications = (SortedMap.ofKeys (a.classifications ++ b.classifications)).keys := by
  rw [SortedMap.ofKeys_append]
  rfl

theorem inAlertSince_merge (a b : HealthProbeAlert) :
    (a.merge b).inAlertSince = Option.merge min a.inAlertSince b.inAlertSince := by
  show Option.merge min b.inAlertSince a.inAlertSince = _
  cases a.inAlertSince <;> cases b.inAlertSince <;> simp [min_comm]

end HealthProbeAlert

namespace HealthProbeSuccess

@[simp] theorem ofKey_key (s : HealthProbeSuccess) : ofKey s.key = s := rfl

theorem key_injective : Function.Injective key := Function.LeftInverse.injective ofKey_key

end HealthProbeSuccess

namespace HealthReport

/-- `merge` with its two loops split into one over the success set and one
over the alert map. -/
theorem merge_eq (self other : HealthReport) :
    self.merge other =
      { observedAt := Option.merge min self.observedAt other.observedAt
        successes := (other.alerts.foldl (fun s a => s.erase a.key)
          (self.alerts.foldl (fun s a => s.erase a.key)
            (SortedMap.ofKeys (self.successes.map (·.key) ++ other.successes.map (·.key))))).keys.map
          HealthProbeSuccess.ofKey
        alerts := (other.alerts.foldl (fun m a => m.insertWith HealthProbeAlert.merge a.key a)
          (self.alerts.foldl (fun m a => m.insert a.key a) SortedMap.empty)).values } := by
  simp only [merge]
  rw [foldl_pair (fun (s : SortedMap ProbeKey Unit) (a : HealthProbeAlert) => s.erase a.key)
      (fun (m : SortedMap ProbeKey HealthProbeAlert) a => m.insert a.key a),
    foldl_pair (fun (s : SortedMap ProbeKey Unit) (a : HealthProbeAlert) => s.erase a.key)
      (fun (m : SortedMap ProbeKey HealthProbeAlert) a => m.insertWith HealthProbeAlert.merge a.key a),
    SortedMap.ofKeys_append]

/-- The alert map that `merge` leaves: `self`'s alerts inserted, then
`other`'s merged in. -/
theorem merge_alerts (self other : HealthReport) :
    (self.merge other).alerts =
      (other.alerts.foldl (fun m a => m.insertWith HealthProbeAlert.merge a.key a)
        (self.alerts.foldl (fun m a => m.insert a.key a) SortedMap.empty)).values := by
  rw [merge_eq]

/-- The success set that `merge` leaves: both reports' successes, less every
key of an alert of either. -/
theorem merge_successes (self other : HealthReport) :
    (self.merge other).successes.map (·.key) =
      (other.alerts.foldl (fun s a => s.erase a.key)
        (self.alerts.foldl (fun s a => s.erase a.key)
          (SortedMap.ofKeys (self.successes.map (·.key) ++ other.successes.map (·.key))))).keys := by
  rw [merge_eq, List.map_map]
  exact List.map_id _

theorem keyed_foldl_insert (l : List HealthProbeAlert) :
    SortedMap.Keyed HealthProbeAlert.key (l.foldl (fun m a => m.insert a.key a) SortedMap.empty) :=
  SortedMap.keyed_empty.foldl_insertWith (f := fun _ v => v) (fun _ _ _ => rfl) l

/-- The alerts that `merge` leaves are the values of a map that stores each
alert under its own key. -/
theorem merge_alerts_keyed (self other : HealthReport) :
    SortedMap.Keyed HealthProbeAlert.key
      (other.alerts.foldl (fun m a => m.insertWith HealthProbeAlert.merge a.key a)
        (self.alerts.foldl (fun m a => m.insert a.key a) SortedMap.empty)) :=
  (keyed_foldl_insert self.alerts).foldl_insertWith (f := HealthProbeAlert.merge) (fun _ _ h => h)
    other.alerts

theorem mem_merge_alerts_keys {self other : HealthReport} {q : ProbeKey} :
    q ∈ (self.merge other).alerts.map (·.key) ↔
      q ∈ self.alerts.map (·.key) ∨ q ∈ other.alerts.map (·.key) := by
  rw [merge_alerts, (merge_alerts_keyed self other).map_key_values]
  unfold SortedMap.insert
  rw [SortedMap.mem_keys_foldl_insertWith, SortedMap.mem_keys_foldl_insertWith]
  simp [SortedMap.keys, SortedMap.empty]

theorem mem_merge_successes_keys {self other : HealthReport} {q : ProbeKey} :
    q ∈ (self.merge other).successes.map (·.key) ↔
      (q ∈ self.successes.map (·.key) ∨ q ∈ other.successes.map (·.key)) ∧
        q ∉ self.alerts.map (·.key) ∧ q ∉ other.alerts.map (·.key) := by
  rw [merge_successes, SortedMap.mem_keys_foldl_erase, SortedMap.mem_keys_foldl_erase,
    SortedMap.mem_keys_ofKeys, List.mem_append, and_assoc]

theorem sorted_merge_successes (self other : HealthReport) :
    ((self.merge other).successes.map (·.key)).Pairwise (· < ·) := by
  rw [merge_successes]
  exact SortedMap.sorted_keys _

/-- No key is both a success and an alert after a merge. -/
theorem merge_successes_disjoint (self other : HealthReport) :
    ∀ q ∈ (self.merge other).successes.map (·.key), q ∉ (self.merge other).alerts.map (·.key) := by
  intro q hq
  rw [mem_merge_successes_keys] at hq
  rw [mem_merge_alerts_keys, not_or]
  exact hq.2

end HealthReport

/-! ## A fold of merges -/

/-- The alerts of the reports under one key, in the order a fold meets them. -/
def alertsAt (reports : List HealthReport) (q : ProbeKey) : List HealthProbeAlert :=
  (reports.flatMap (·.alerts)).filter (·.key = q)

/-- A key's alerts merged in turn: the first is stored as it is
(`Entry::Vacant`), each later one is merged into the alert stored
(`Entry::Occupied`). -/
def combine (alerts : List HealthProbeAlert) : Option HealthProbeAlert :=
  alerts.foldl (fun acc a => some (acc.elim a (·.merge a))) none

theorem key_of_mem_alertsAt {reports : List HealthReport} {q : ProbeKey} {a : HealthProbeAlert}
    (ha : a ∈ alertsAt reports q) : a.key = q := by
  simpa using (List.mem_filter.1 ha).2

theorem alertsAt_perm {reports reports' : List HealthReport} (h : reports.Perm reports')
    (q : ProbeKey) : (alertsAt reports q).Perm (alertsAt reports' q) :=
  (h.flatMap_right _).filter _

theorem keyed_foldl_merge {m : SortedMap ProbeKey HealthProbeAlert}
    (hm : SortedMap.Keyed HealthProbeAlert.key m) (l : List HealthProbeAlert) :
    SortedMap.Keyed HealthProbeAlert.key
      (l.foldl (fun m a => m.insertWith HealthProbeAlert.merge a.key a) m) :=
  hm.foldl_insertWith (f := HealthProbeAlert.merge) (fun _ _ h => h) l

/-- The run lemma for the alerts: from a report whose alerts are the values of a
keyed map, the fold stores every later alert into that map. -/
theorem foldl_merge_alerts (reports : List HealthReport) {acc : HealthReport}
    {m : SortedMap ProbeKey HealthProbeAlert} (hm : SortedMap.Keyed HealthProbeAlert.key m)
    (hacc : acc.alerts = m.values) :
    (reports.foldl HealthReport.merge acc).alerts =
      ((reports.flatMap (·.alerts)).foldl
        (fun m a => m.insertWith HealthProbeAlert.merge a.key a) m).values := by
  induction reports generalizing acc m with
  | nil => exact hacc
  | cons r rs ih =>
    -- the alerts of `acc`, inserted again, build `m` back
    have hstep : (acc.merge r).alerts =
        (r.alerts.foldl (fun m a => m.insertWith HealthProbeAlert.merge a.key a) m).values := by
      rw [HealthReport.merge_alerts, hacc, hm.foldl_insert_values]
    rw [List.foldl_cons, ih (keyed_foldl_merge hm r.alerts) hstep, List.flatMap_cons,
      List.foldl_append]

theorem mergeAll_alerts (now : Int) (reports : List HealthReport) :
    (mergeAll now reports).alerts =
      ((reports.flatMap (·.alerts)).foldl
        (fun m a => m.insertWith HealthProbeAlert.merge a.key a) SortedMap.empty).values :=
  foldl_merge_alerts reports SortedMap.keyed_empty rfl

/-- The alert under a key after the fold is the merge, in fold order, of every
alert reported under it. -/
theorem find?_mergeAll (now : Int) (reports : List HealthReport) (q : ProbeKey) :
    (mergeAll now reports).alerts.find? (·.key = q) = combine (alertsAt reports q) := by
  rw [mergeAll_alerts, (keyed_foldl_merge SortedMap.keyed_empty _).find?_values,
    SortedMap.lookup_foldl_insertWith HealthProbeAlert.key (fun a => a), SortedMap.lookup_empty]
  rfl

theorem sorted_mergeAll_alerts (now : Int) (reports : List HealthReport) :
    ((mergeAll now reports).alerts.map (·.key)).Pairwise (· < ·) := by
  rw [mergeAll_alerts, (keyed_foldl_merge SortedMap.keyed_empty _).map_key_values]
  exact SortedMap.sorted_keys _

theorem mem_mergeAll_alerts_keys {now : Int} {reports : List HealthReport} {q : ProbeKey} :
    q ∈ (mergeAll now reports).alerts.map (·.key) ↔ ∃ r ∈ reports, q ∈ r.alerts.map (·.key) := by
  rw [mergeAll_alerts, (keyed_foldl_merge SortedMap.keyed_empty _).map_key_values,
    SortedMap.mem_keys_foldl_insertWith, List.map_flatMap, List.mem_flatMap]
  simp only [SortedMap.keys, SortedMap.empty, List.map_nil, List.not_mem_nil, false_or]

/-- The run lemma for the successes, from a report whose successes and alerts
have no key in common. -/
theorem mem_foldl_merge_successes (reports : List HealthReport) {acc : HealthReport}
    (hacc : ∀ q ∈ acc.successes.map (·.key), q ∉ acc.alerts.map (·.key)) (q : ProbeKey) :
    q ∈ (reports.foldl HealthReport.merge acc).successes.map (·.key) ↔
      (q ∈ acc.successes.map (·.key) ∨ ∃ r ∈ reports, q ∈ r.successes.map (·.key)) ∧
        q ∉ acc.alerts.map (·.key) ∧ ∀ r ∈ reports, q ∉ r.alerts.map (·.key) := by
  induction reports generalizing acc with
  | nil =>
    constructor
    · intro h
      exact ⟨.inl h, hacc q h, fun _ hr => absurd hr List.not_mem_nil⟩
    · rintro ⟨h | ⟨_, hr, _⟩, -, -⟩
      · exact h
      · exact absurd hr List.not_mem_nil
  | cons r rs ih =>
    rw [List.foldl_cons, ih (HealthReport.merge_successes_disjoint acc r),
      HealthReport.mem_merge_successes_keys, HealthReport.mem_merge_alerts_keys]
    simp only [List.mem_cons, forall_eq_or_imp, or_and_right, exists_or, exists_eq_left]
    grind

theorem mem_mergeAll_successes {now : Int} {reports : List HealthReport} {q : ProbeKey} :
    q ∈ (mergeAll now reports).successes.map (·.key) ↔
      (∃ r ∈ reports, q ∈ r.successes.map (·.key)) ∧ ∀ r ∈ reports, q ∉ r.alerts.map (·.key) := by
  rw [mergeAll, mem_foldl_merge_successes reports (fun _ h => absurd h List.not_mem_nil)]
  simp [HealthReport.empty]

theorem sorted_foldl_merge_successes (reports : List HealthReport) {acc : HealthReport}
    (hacc : (acc.successes.map (·.key)).Pairwise (· < ·)) :
    ((reports.foldl HealthReport.merge acc).successes.map (·.key)).Pairwise (· < ·) := by
  induction reports generalizing acc with
  | nil => exact hacc
  | cons r rs ih => exact ih (HealthReport.sorted_merge_successes acc r)

theorem sorted_mergeAll_successes (now : Int) (reports : List HealthReport) :
    ((mergeAll now reports).successes.map (·.key)).Pairwise (· < ·) :=
  sorted_foldl_merge_successes reports List.Pairwise.nil

theorem observedAt_foldl_merge (reports : List HealthReport) (acc : HealthReport) :
    (reports.foldl HealthReport.merge acc).observedAt =
      Option.merge min acc.observedAt (reports.filterMap (·.observedAt)).min? := by
  rw [← foldl_merge_min]
  exact (List.foldl_hom HealthReport.observedAt fun _ _ => rfl).symm

/-- The time of the result is the least of `now` and of the times present. -/
theorem observedAt_mergeAll (now : Int) (reports : List HealthReport) :
    (mergeAll now reports).observedAt =
      Option.merge min (some now) (reports.filterMap (·.observedAt)).min? :=
  observedAt_foldl_merge reports _

/-! ## One key's alerts -/

namespace HealthProbeAlert

/-- An alert without the texts that a merge joins in the order it meets them. -/
def withoutText (a : HealthProbeAlert) : HealthProbeAlert := { a with message := "", tenantMessage := none }

/-- Without its texts an alert is its key, its time and its classifications. -/
theorem withoutText_eq {a b : HealthProbeAlert} (hk : a.key = b.key)
    (hi : a.inAlertSince = b.inAlertSince) (hc : a.classifications = b.classifications) :
    a.withoutText = b.withoutText := by
  have hid : (a.id, a.target) = (b.id, b.target) := toLex_inj.1 hk
  simp only [Prod.mk.injEq] at hid
  cases a
  cases b
  simp_all [withoutText]

theorem key_foldl_merge (l : List HealthProbeAlert) (e : HealthProbeAlert) :
    (l.foldl merge e).key = e.key := by
  induction l generalizing e with
  | nil => rfl
  | cons x xs ih => exact ih (e.merge x)

theorem inAlertSince_foldl_merge (l : List HealthProbeAlert) (e : HealthProbeAlert) :
    (l.foldl merge e).inAlertSince =
      l.foldl (fun o a => Option.merge min o a.inAlertSince) e.inAlertSince :=
  (List.foldl_hom inAlertSince fun x y => (inAlertSince_merge x y).symm).symm

theorem classifications_foldl_merge {l : List HealthProbeAlert} (hl : l ≠ []) (e : HealthProbeAlert) :
    (l.foldl merge e).classifications =
      (SortedMap.ofKeys (e.classifications ++ l.flatMap (·.classifications))).keys := by
  induction l generalizing e with
  | nil => exact absurd rfl hl
  | cons x xs ih =>
    rw [List.foldl_cons]
    by_cases hxs : xs = []
    · subst hxs
      simp [classifications_merge]
    · -- the sorted union of the first two, then of the rest, has the members of all
      rw [ih hxs, classifications_merge, SortedMap.ofKeys_congr]
      intro c
      simp [SortedMap.mem_keys_ofKeys, or_assoc]

end HealthProbeAlert

theorem foldl_combine_some (l : List HealthProbeAlert) (e : HealthProbeAlert) :
    l.foldl (fun acc a => some (acc.elim a (·.merge a))) (some e) =
      some (l.foldl HealthProbeAlert.merge e) := by
  induction l generalizing e with
  | nil => rfl
  | cons x xs ih => exact ih (e.merge x)

theorem combine_cons (a : HealthProbeAlert) (l : List HealthProbeAlert) :
    combine (a :: l) = some (l.foldl HealthProbeAlert.merge a) :=
  foldl_combine_some l a

theorem combine_eq_none_iff {l : List HealthProbeAlert} : combine l = none ↔ l = [] := by
  cases l with
  | nil => exact iff_of_true rfl rfl
  | cons a l => simp [combine_cons]

theorem key_of_combine {l : List HealthProbeAlert} {q : ProbeKey} {c : HealthProbeAlert}
    (hl : ∀ a ∈ l, a.key = q) (h : combine l = some c) : c.key = q := by
  cases l with
  | nil => cases h
  | cons a l =>
    rw [combine_cons, Option.some.injEq] at h
    rw [← h, HealthProbeAlert.key_foldl_merge]
    exact hl a List.mem_cons_self

/-- The time of a key's merged alert is the least time present among its alerts. -/
theorem inAlertSince_of_combine {l : List HealthProbeAlert} {c : HealthProbeAlert}
    (h : combine l = some c) : c.inAlertSince = (l.filterMap (·.inAlertSince)).min? := by
  cases l with
  | nil => cases h
  | cons a l =>
    rw [combine_cons, Option.some.injEq] at h
    rw [← h, HealthProbeAlert.inAlertSince_foldl_merge]
    -- the fold from the first alert's time is the fold from no time
    have hmin := foldl_merge_min (fun a : HealthProbeAlert => a.inAlertSince) (a :: l) none
    rw [List.foldl_cons, Option.merge_none_left, Option.merge_none_left] at hmin
    exact hmin

/-- The classifications of a key's merged alert: those of its one alert as they
were reported, or the sorted union of all of them when there are several. -/
theorem classifications_of_combine {l : List HealthProbeAlert} {c : HealthProbeAlert}
    (h : combine l = some c) :
    c.classifications =
      if l.length = 1 then l.flatMap (·.classifications)
      else (SortedMap.ofKeys (l.flatMap (·.classifications))).keys := by
  cases l with
  | nil => cases h
  | cons a l =>
    rw [combine_cons, Option.some.injEq] at h
    subst h
    cases l with
    | nil => simp
    | cons b l =>
      rw [if_neg (by simp), HealthProbeAlert.classifications_foldl_merge (List.cons_ne_nil b l)]
      simp only [List.flatMap_cons]

/-- Apart from its texts, a key's merged alert does not depend on the order
of its alerts. -/
theorem combine_withoutText_perm {l l' : List HealthProbeAlert} {q : ProbeKey} (h : l.Perm l')
    (hl : ∀ a ∈ l, a.key = q) :
    (combine l).map HealthProbeAlert.withoutText = (combine l').map HealthProbeAlert.withoutText := by
  have hl' : ∀ a ∈ l', a.key = q := fun a ha => hl a (h.mem_iff.2 ha)
  cases hc : combine l with
  | none =>
    rw [combine_eq_none_iff] at hc
    subst hc
    obtain rfl := h.nil_eq
    rfl
  | some c =>
    cases hc' : combine l' with
    | none =>
      rw [combine_eq_none_iff] at hc'
      subst hc'
      rw [combine_eq_none_iff.2 h.eq_nil] at hc
      cases hc
    | some c' =>
      simp only [Option.map_some, Option.some.injEq]
      apply HealthProbeAlert.withoutText_eq
      · rw [key_of_combine hl hc, key_of_combine hl' hc']
      · rw [inAlertSince_of_combine hc, inAlertSince_of_combine hc', min?_perm (h.filterMap _)]
      · rw [classifications_of_combine hc, classifications_of_combine hc', h.length_eq]
        split_ifs with h1
        · -- one alert on both sides: the same one
          obtain ⟨a, rfl⟩ := List.length_eq_one_iff.1 h1
          rw [h.eq_singleton]
        · rw [SortedMap.ofKeys_congr fun x => (h.flatMap_right _).mem_iff]

theorem mergeAll_alerts_perm (now : Int) {reports reports' : List HealthReport}
    (h : reports.Perm reports') :
    (mergeAll now reports).alerts.map HealthProbeAlert.withoutText =
      (mergeAll now reports').alerts.map HealthProbeAlert.withoutText := by
  have hkeys : ∀ l : List HealthProbeAlert,
      (l.map HealthProbeAlert.withoutText).map (·.key) = l.map (·.key) := fun l => by
    rw [List.map_map]
    rfl
  have hsorted : ∀ rs : List HealthReport,
      (((mergeAll now rs).alerts.map HealthProbeAlert.withoutText).map (·.key)).Pairwise (· < ·) := by
    intro rs
    rw [hkeys]
    exact sorted_mergeAll_alerts now rs
  refine SortedMap.eq_of_find?_eq (hsorted reports) (hsorted reports') fun q => ?_
  rw [List.find?_map, List.find?_map]
  exact (find?_mergeAll now reports q).symm ▸ (find?_mergeAll now reports' q).symm ▸
    combine_withoutText_perm (alertsAt_perm h q) fun _ ha => key_of_mem_alertsAt ha

theorem mergeAll_successes_perm (now : Int) {reports reports' : List HealthReport}
    (h : reports.Perm reports') :
    (mergeAll now reports).successes = (mergeAll now reports').successes := by
  apply List.map_injective_iff.2 HealthProbeSuccess.key_injective
  apply List.Pairwise.eq_of_mem_iff (sorted_mergeAll_successes now reports)
    (sorted_mergeAll_successes now reports')
  intro q
  simp only [mem_mergeAll_successes, h.mem_iff]

theorem mergeAll_observedAt_perm (now : Int) {reports reports' : List HealthReport}
    (h : reports.Perm reports') :
    (mergeAll now reports).observedAt = (mergeAll now reports').observedAt := by
  rw [observedAt_mergeAll, observedAt_mergeAll, min?_perm (h.filterMap _)]

/-! ## The fold as a key-wise union -/

/-- After the merges of `derive_aggregate_health` there is one alert for each
key any report raises an alert for, with the least time present and, for a
key with several alerts, the sorted union of their classifications (a key with
one alert keeps that alert's own); the successes are the keys some report
calls a success and none raises an alert for; the time is the least of `now`
and of the times present; and all of it, the texts of the messages apart,
is the same for every order of the reports. -/
theorem mergeAll_keywise_union (now : Int) (reports : List HealthReport) :
    ((mergeAll now reports).alerts.map (·.key)).Pairwise (· < ·) ∧
      (∀ q, q ∈ (mergeAll now reports).alerts.map (·.key) ↔
        ∃ r ∈ reports, q ∈ r.alerts.map (·.key)) ∧
      (∀ a ∈ (mergeAll now reports).alerts,
        a.inAlertSince = ((alertsAt reports a.key).filterMap (·.inAlertSince)).min? ∧
        a.classifications =
          if (alertsAt reports a.key).length = 1 then
            (alertsAt reports a.key).flatMap (·.classifications)
          else (SortedMap.ofKeys ((alertsAt reports a.key).flatMap (·.classifications))).keys) ∧
      ((mergeAll now reports).successes.map (·.key)).Pairwise (· < ·) ∧
      (∀ q, q ∈ (mergeAll now reports).successes.map (·.key) ↔
        (∃ r ∈ reports, q ∈ r.successes.map (·.key)) ∧ ∀ r ∈ reports, q ∉ r.alerts.map (·.key)) ∧
      (mergeAll now reports).observedAt =
        Option.merge min (some now) (reports.filterMap (·.observedAt)).min? ∧
      ∀ reports', reports'.Perm reports →
        (mergeAll now reports').alerts.map HealthProbeAlert.withoutText =
            (mergeAll now reports).alerts.map HealthProbeAlert.withoutText ∧
          (mergeAll now reports').successes = (mergeAll now reports).successes ∧
          (mergeAll now reports').observedAt = (mergeAll now reports).observedAt := by
  refine ⟨sorted_mergeAll_alerts now reports, fun q => mem_mergeAll_alerts_keys, fun a ha => ?_,
    sorted_mergeAll_successes now reports, fun q => mem_mergeAll_successes,
    observedAt_mergeAll now reports, fun reports' h =>
      ⟨mergeAll_alerts_perm now h, mergeAll_successes_perm now h, mergeAll_observedAt_perm now h⟩⟩
  -- the alert is the one found under its own key: the merge of that key's alerts
  have hc : combine (alertsAt reports a.key) = some a := by
    rw [← find?_mergeAll now reports a.key]
    exact SortedMap.find?_of_mem (sorted_mergeAll_alerts now reports) ha
  exact ⟨inAlertSince_of_combine hc, classifications_of_combine hc⟩

/-- A DPU agent report with one alert whose classifications repeat and are out
of order. -/
def unsortedReport : HealthReport :=
  ⟨some 0, [], [⟨"HeartbeatTimeout", some "forge-dpu-agent", some 0, "", none,
    ["PreventHostStateChanges", "PreventAllocations", "PreventAllocations"]⟩]⟩

/-- Folded into `HealthReport::empty`, the alert keeps its classifications as
reported, where their sorted, duplicate-free union has two. -/
theorem mergeAll_single_alert_unsorted :
    (mergeAll 0 [unsortedReport]).alerts.map (·.classifications) =
        [["PreventHostStateChanges", "PreventAllocations", "PreventAllocations"]] ∧
      (SortedMap.ofKeys ["PreventHostStateChanges", "PreventAllocations", "PreventAllocations"]).keys =
        ["PreventAllocations", "PreventHostStateChanges"] := by
  decide

end Carbide.Health
