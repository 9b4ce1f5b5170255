/-
  Passive health of an `EndpointGroup` against the history of its reports.

  A group keeps one entry for an endpoint: a count of failures, or the time since which it is
  dead. The history is the list of all `report_failure` and `report_success` calls. The link is
  an invariant on the entry of one id (`Tracks`): a count below the threshold is the number of
  failures since the last success; a dead entry carries the time of the most recent failure.

  Proved: `is_alive` is "fewer than `failure_threshold` failures since the last success, or at
  least `revive_after` since the most recent failure", for each id by its own reports only, and
  `select_first_alive` is the first configured endpoint of which this holds (`health_exact`).
-/
import Mathlib.Data.List.Induction
import Pgferry.Routing

namespace Pgferry

/-- One call of `report_failure` (`failed`) or `report_success`. -/
structure Report where
  time : Nat
  id : String
  failed : Bool
  deriving DecidableEq, Repr

namespace EndpointGroup

/-- Carry out a report. -/
def note (g : EndpointGroup) (r : Report) : EndpointGroup :=
  if r.failed then g.reportFailure r.time r.id else g.reportSuccess r.id

/-- The group after some reports. -/
def after (g : EndpointGroup) (reports : List Report) : EndpointGroup := reports.foldl note g

theorem after_concat (g : EndpointGroup) (reports : List Report) (r : Report) :
    g.after (reports ++ [r]) = (g.after reports).note r := by
  unfold after
  rw [List.foldl_append]
  rfl

/-- A report changes entries only. -/
theorem note_settings (g : EndpointGroup) (r : Report) :
    (g.note r).failureThreshold = g.failureThreshold ∧ (g.note r).reviveAfter = g.reviveAfter := by
  unfold note reportSuccess
  split
  · exact ⟨rfl, rfl⟩
  · split <;> exact ⟨rfl, rfl⟩

theorem after_settings (g : EndpointGroup) (reports : List Report) :
    (g.after reports).failureThreshold = g.failureThreshold ∧
      (g.after reports).reviveAfter = g.reviveAfter := by
  induction reports using List.reverseRecOn with
  | nil => exact ⟨rfl, rfl⟩
  | append_singleton reports r ih =>
      rw [after_concat]
      obtain ⟨hk, hd⟩ := note_settings (g.after reports) r
      exact ⟨hk.trans ih.1, hd.trans ih.2⟩

end EndpointGroup

/-! ## The history of one id -/

/-- The reports about one id. -/
def about (id : String) (reports : List Report) : List Report :=
  reports.filter fun r => decide (r.id = id)

/-- The failures of `id` since its last success, or since the start. -/
def failuresSince (id : String) (reports : List Report) : Nat :=
  ((about id reports).reverse.takeWhile Report.failed).length

/-- The time of the most recent failure of `id`. -/
def lastFailure (id : String) (reports : List Report) : Option Nat :=
  ((about id reports).reverse.find? Report.failed).map Report.time

/-- Alive by the history: few failures since the last success, or a cooldown since the most
    recent one. -/
def HealthyAt (threshold cooldown now : Nat) (id : String) (reports : List Report) : Prop :=
  failuresSince id reports < threshold ∨
    ∃ time, lastFailure id reports = some time ∧ cooldown ≤ now - time

theorem about_concat (id : String) (reports : List Report) (r : Report) :
    about id (reports ++ [r]) =
      if r.id = id then about id reports ++ [r] else about id reports := by
  unfold about
  rw [List.filter_append]
  by_cases h : r.id = id
  · simp [h]
  · simp [h]

theorem failuresSince_other {id : String} {r : Report} (h : r.id ≠ id) (reports : List Report) :
    failuresSince id (reports ++ [r]) = failuresSince id reports := by
  unfold failuresSince
  rw [about_concat, if_neg h]

theorem lastFailure_other {id : String} {r : Report} (h : r.id ≠ id) (reports : List Report) :
    lastFailure id (reports ++ [r]) = lastFailure id reports := by
  unfold lastFailure
  rw [about_concat, if_neg h]

theorem failuresSince_own (reports : List Report) (r : Report) :
    failuresSince r.id (reports ++ [r]) =
      if r.failed then failuresSince r.id reports + 1 else 0 := by
  unfold failuresSince
  rw [about_concat, if_pos rfl, List.reverse_append, List.reverse_singleton, List.singleton_append]
  cases hr : r.failed with
  | true => rw [List.takeWhile_cons_of_pos hr, List.length_cons, if_pos rfl]
  | false =>
      rw [List.takeWhile_cons_of_neg (by rw [hr]; nofun)]
      rfl

theorem lastFailure_own {r : Report} (h : r.failed = true) (reports : List Report) :
    lastFailure r.id (reports ++ [r]) = some r.time := by
  unfold lastFailure
  rw [about_concat, if_pos rfl, List.reverse_append, List.reverse_singleton, List.singleton_append,
    List.find?_cons_of_pos h]
  rfl

/-! ## The entry of one id -/

/-- What the entry of `id` says about the reports so far. -/
def Tracks (threshold : Nat) (id : String) (reports : List Report) : Option Health → Prop
  | none => failuresSince id reports = 0
  | some (.alive failures) => failures = failuresSince id reports ∧ failures < threshold
  | some (.dead since) =>
      threshold ≤ failuresSince id reports ∧ lastFailure id reports = some since

namespace EndpointGroup

theorem new_tracks (ids : List String) {threshold : Nat} (hk : 0 < threshold) (id : String) :
    Tracks threshold id [] ((new ids).inner.lookup id) := by
  have hfold : ∀ (ids : List String) (map : StringMap Health),
      Tracks threshold id [] (map.lookup id) →
      Tracks threshold id []
        ((ids.foldl (fun map id => map.insert id (.alive 0)) map).lookup id) := by
    intro ids
    induction ids with
    | nil => exact fun map h => h
    | cons key ids ih =>
        intro map h
        refine ih _ ?_
        by_cases hid : id = key
        · rw [hid, AList.lookup_insert]
          exact ⟨rfl, hk⟩
        · rw [AList.lookup_insert_ne hid]
          exact h
  exact hfold ids ∅ (by rw [AList.lookup_empty]; rfl)

/-- A report leaves the entries of other ids alone. -/
theorem note_lookup_other (g : EndpointGroup) {id : String} {r : Report} (h : r.id ≠ id) :
    (g.note r).inner.lookup id = g.inner.lookup id := by
  unfold note reportFailure reportSuccess
  split
  · exact AList.lookup_insert_ne (Ne.symm h)
  · split
    · exact AList.lookup_insert_ne (Ne.symm h)
    · rfl

/-- A failure counts up to the threshold; from there on it restarts the clock. -/
theorem reportFailure_tracks {g : EndpointGroup} {reports : List Report} {r : Report}
    (hr : r.failed = true)
    (h : Tracks g.failureThreshold r.id reports (g.inner.lookup r.id)) :
    Tracks g.failureThreshold r.id (reports ++ [r])
      ((g.reportFailure r.time r.id).inner.lookup r.id) := by
  have hcount : failuresSince r.id (reports ++ [r]) = failuresSince r.id reports + 1 := by
    rw [failuresSince_own, if_pos hr]
  have hlast := lastFailure_own hr reports
  -- an unknown id counts from zero, as an alive entry without failures does
  have halive : ∀ failures, failures = failuresSince r.id reports →
      Tracks g.failureThreshold r.id (reports ++ [r])
        (some (if g.failureThreshold ≤ failures + 1 then .dead r.time
          else .alive (failures + 1))) := by
    intro failures hf
    by_cases hk : g.failureThreshold ≤ failures + 1
    · rw [if_pos hk]
      exact ⟨by omega, hlast⟩
    · rw [if_neg hk]
      exact ⟨by omega, by omega⟩
  unfold reportFailure
  rw [AList.lookup_insert]
  cases he : g.inner.lookup r.id with
  | none =>
      rw [he] at h
      exact halive 0 (Eq.symm h)
  | some health =>
      rw [he] at h
      cases health with
      | alive failures => exact halive failures h.1
      | dead since => exact ⟨by have := h.1; omega, hlast⟩

theorem reportSuccess_tracks {g : EndpointGroup} {reports : List Report} {r : Report}
    (hr : r.failed = false) (hk : 0 < g.failureThreshold) :
    Tracks g.failureThreshold r.id (reports ++ [r])
      ((g.reportSuccess r.id).inner.lookup r.id) := by
  have hcount : failuresSince r.id (reports ++ [r]) = 0 := by
    rw [failuresSince_own, hr]
    rfl
  unfold reportSuccess
  split
  case isTrue =>
    rw [AList.lookup_insert]
    exact ⟨hcount.symm, hk⟩
  case isFalse hmem =>
    rw [AList.lookup_eq_none.mpr hmem]
    exact hcount

theorem note_tracks {g : EndpointGroup} {reports : List Report} (hk : 0 < g.failureThreshold)
    (r : Report) {id : String}
    (h : Tracks g.failureThreshold id reports (g.inner.lookup id)) :
    Tracks g.failureThreshold id (reports ++ [r]) ((g.note r).inner.lookup id) := by
  by_cases hid : r.id = id
  · subst hid
    unfold note
    cases hr : r.failed with
    | true => exact reportFailure_tracks hr h
    | false => exact reportSuccess_tracks hr hk
  · rw [note_lookup_other g hid]
    unfold Tracks
    rw [failuresSince_other hid, lastFailure_other hid]
    exact h

theorem after_tracks {g : EndpointGroup} (hk : 0 < g.failureThreshold) {id : String}
    (h : Tracks g.failureThreshold id [] (g.inner.lookup id)) (reports : List Report) :
    Tracks g.failureThreshold id reports ((g.after reports).inner.lookup id) := by
  induction reports using List.reverseRecOn with
  | nil => exact h
  | append_singleton reports r ih =>
      rw [after_concat]
      rw [← (after_settings g reports).1] at hk ih ⊢
      exact note_tracks hk r ih

theorem isAlive_iff {g : EndpointGroup} {id : String} {reports : List Report}
    (hk : 0 < g.failureThreshold)
    (h : Tracks g.failureThreshold id reports (g.inner.lookup id)) (now : Nat) :
    g.isAlive now id = true ↔
      HealthyAt g.failureThreshold g.reviveAfter now id reports := by
  unfold isAlive HealthyAt
  cases he : g.inner.lookup id with
  | none =>
      rw [he] at h
      have hzero : failuresSince id reports = 0 := h
      exact ⟨fun _ => .inl (by omega), fun _ => rfl⟩
  | some health =>
      rw [he] at h
      cases health with
      | alive failures =>
          obtain ⟨hf, hlt⟩ := h
          exact ⟨fun _ => .inl (by omega), fun _ => rfl⟩
      | dead since =>
          obtain ⟨hle, hlast⟩ := h
          dsimp only
          rw [decide_eq_true_iff, hlast]
          constructor
          · intro hd
            exact .inr ⟨since, rfl, hd⟩
          · rintro (hlt | ⟨time, ht, hd⟩)
            · omega
            · cases ht
              exact hd

end EndpointGroup

/-! ## The group against the history -/

namespace EndpointGroup

/-- `select_first_alive` returns the first endpoint that `is_alive` accepts. -/
theorem selectFirstAlive_some {g : EndpointGroup} {now : Nat} {info : RoutingInfo} {id : String} :
    g.selectFirstAlive now info = some id ↔
      ∃ before e rest, info.endpoints = before ++ e :: rest ∧ e.id = id ∧
        g.isAlive now id = true ∧ ∀ b ∈ before, ¬ g.isAlive now b.id = true := by
  unfold selectFirstAlive
  rw [Option.map_eq_some_iff]
  constructor
  · rintro ⟨e, hf, rfl⟩
    obtain ⟨he, before, rest, hsplit, hbefore⟩ := List.find?_eq_some_iff_append.mp hf
    exact ⟨before, e, rest, hsplit, rfl, he, fun b hb => by simpa using hbefore b hb⟩
  · rintro ⟨before, e, rest, hsplit, rfl, he, hbefore⟩
    refine ⟨e, List.find?_eq_some_iff_append.mpr ⟨he, before, rest, hsplit, ?_⟩, rfl⟩
    exact fun b hb => by simpa using hbefore b hb

theorem selectFirstAlive_none {g : EndpointGroup} {now : Nat} {info : RoutingInfo} :
    g.selectFirstAlive now info = none ↔ ∀ e ∈ info.endpoints, ¬ g.isAlive now e.id = true := by
  unfold selectFirstAlive
  rw [Option.map_eq_none_iff, List.find?_eq_none]

end EndpointGroup

open EndpointGroup in
/-- For a group with any threshold and cooldown, after any reports: an id is alive exactly when
    it is by the history; reports about other ids do not count; and `select_first_alive` picks
    the first configured endpoint that is alive by the history, if there is one. -/
theorem health_exact (ids : List String) (threshold cooldown : Nat) (reports : List Report) :
    let g := ((new ids).withFailureThreshold threshold).withReviveAfter cooldown
    let Alive := fun now id => HealthyAt (max threshold 1) cooldown now id reports
    (∀ now id, (g.after reports).isAlive now id = true ↔ Alive now id) ∧
      (∀ now id others, about id others = about id reports →
        (g.after others).isAlive now id = (g.after reports).isAlive now id) ∧
      (∀ now info id, (g.after reports).selectFirstAlive now info = some id ↔
        ∃ before e rest, info.endpoints = before ++ e :: rest ∧ e.id = id ∧ Alive now id ∧
          ∀ b ∈ before, ¬ Alive now b.id) ∧
      ∀ now info, (g.after reports).selectFirstAlive now info = none ↔
        ∀ e ∈ info.endpoints, ¬ Alive now e.id := by
  intro g Alive
  have hk : 0 < g.failureThreshold := Nat.lt_of_lt_of_le Nat.zero_lt_one (Nat.le_max_right _ _)
  have halive : ∀ reports now id, (g.after reports).isAlive now id = true ↔
      HealthyAt (max threshold 1) cooldown now id reports := by
    intro reports now id
    obtain ⟨hthreshold, hcooldown⟩ := after_settings g reports
    have htracks := after_tracks hk (new_tracks ids hk id) reports
    rw [← hthreshold] at hk htracks
    rw [isAlive_iff hk htracks, hthreshold, hcooldown]
    rfl
  refine ⟨halive reports, ?_, ?_, ?_⟩
  · intro now id others habout
    rw [Bool.eq_iff_iff, halive, halive]
    unfold HealthyAt failuresSince lastFailure
    rw [habout]
  · intro now info id
    rw [selectFirstAlive_some]
    simp only [halive, Alive]
  · intro now info
    rw [selectFirstAlive_none]
    simp only [halive, Alive]

end Pgferry
