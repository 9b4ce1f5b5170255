/-
  What a scatter gathers (`execute_scatter` of `scatter.rs` up to the merge).

  `Session.gather` is the scatter up to the merge: every leg has completed without an error and
  its messages stand in the order in which `execute_scatter` gathers them, the leg on the
  session's lease first and then the pooled legs as they complete. `gatherOrder` is that order
  as positions in the request, so that `Gathered.requested` can put the answers back into
  request order.

  Proved: the gather order is a permutation of the request and the order of the legs that run
  (`gatherOrder_perm`, `gatherOrder_legs`), each leg has one answer there (`gather_order`), and
  a scatter that succeeds is the merge of what was gathered (`executeScatter_gather`,
  `gather_of_ok`).
-/
import Mathlib.Data.List.Dedup
import Pgferry.Session.Specs

namespace Pgferry

variable {σ κ : Type}

/-! ## Result messages -/

def BackendMessage.row? : BackendMessage → Option DataRow
  | .dataRow row => some row
  | _ => none

def BackendMessage.fields? : BackendMessage → Option (List FieldDescription)
  | .rowDescription fields => some fields
  | _ => none

/-- The rows of an answer. -/
def dataRows (ms : List BackendMessage) : List DataRow := ms.filterMap BackendMessage.row?

/-- The row descriptions of an answer. -/
def descriptions (ms : List BackendMessage) : List (List FieldDescription) :=
  ms.filterMap BackendMessage.fields?

/-- No row stands before the first description. -/
def headed : List BackendMessage → Bool
  | [] => true
  | .rowDescription _ :: _ => true
  | .dataRow _ :: rest => (descriptions rest).isEmpty
  | _ :: rest => headed rest

/-- The messages of a result set. -/
def resultSet (fields : Option (List FieldDescription)) (rows : List DataRow) :
    List BackendMessage :=
  fields.toList.map .rowDescription ++ rows.map .dataRow

theorem dataRows_cons (m : BackendMessage) (ms : List BackendMessage) :
    dataRows (m :: ms) = m.row?.toList ++ dataRows ms := by
  rw [dataRows, List.filterMap_cons]
  cases m.row? <;> rfl

theorem descriptions_cons (m : BackendMessage) (ms : List BackendMessage) :
    descriptions (m :: ms) = m.fields?.toList ++ descriptions ms := by
  rw [descriptions, List.filterMap_cons]
  cases m.fields? <;> rfl

theorem dataRows_append (ms ms' : List BackendMessage) :
    dataRows (ms ++ ms') = dataRows ms ++ dataRows ms' := List.filterMap_append

theorem descriptions_append (ms ms' : List BackendMessage) :
    descriptions (ms ++ ms') = descriptions ms ++ descriptions ms' := List.filterMap_append

theorem dataRows_map (rows : List DataRow) : dataRows (rows.map .dataRow) = rows := by
  induction rows with
  | nil => rfl
  | cons row rows ih => rw [List.map_cons, dataRows_cons, ih]; rfl

theorem descriptions_map (rows : List DataRow) : descriptions (rows.map .dataRow) = [] := by
  induction rows with
  | nil => rfl
  | cons row rows ih => rw [List.map_cons, descriptions_cons, ih]; rfl

theorem dataRows_resultSet (fields : Option (List FieldDescription)) (rows : List DataRow) :
    dataRows (resultSet fields rows) = rows := by
  rw [resultSet, dataRows_append, dataRows_map]
  cases fields <;> rfl

theorem descriptions_resultSet (fields : Option (List FieldDescription)) (rows : List DataRow) :
    descriptions (resultSet fields rows) = fields.toList := by
  rw [resultSet, descriptions_append, descriptions_map, List.append_nil]
  cases fields <;> rfl

/-! ## Gather order -/

/-- The positions of `n` pooled legs in the order of their completion. -/
def completionPositions (n : Nat) (completion : List Nat) : List Nat :=
  let listed := (completion.filter (fun i => decide (i < n))).dedup
  listed ++ (List.range n).filter fun i => !listed.contains i

/-- The position of the leg that reuses the session's lease. -/
def sessionPosition (sessionEndpoint : Option String) (leased : Bool) (legs : List ScatterLeg) :
    Option Nat :=
  legs.findIdx? fun leg => leased && decide (sessionEndpoint = some leg.endpoint)

/-- The positions of the legs in the order in which their answers are gathered. -/
def gatherOrder (sessionEndpoint : Option String) (leased : Bool) (legs : List ScatterLeg)
    (completion : List Nat) : List Nat :=
  match sessionPosition sessionEndpoint leased legs with
  | none => completionPositions legs.length completion
  | some k =>
      k :: (completionPositions (legs.length - 1) completion).map
        fun i => if i < k then i else i + 1

theorem completionPositions_perm (n : Nat) (completion : List Nat) :
    (completionPositions n completion).Perm (List.range n) := by
  have hlt : ∀ i ∈ (completion.filter (fun i => decide (i < n))).dedup, i < n := by
    intro i hi
    simpa using (List.mem_filter.mp (List.mem_dedup.mp hi)).2
  refine (List.perm_ext_iff_of_nodup ?_ List.nodup_range).mpr fun i => ?_
  · refine List.Nodup.append (List.nodup_dedup _) (List.nodup_range.filter _) ?_
    intro i hl hr
    have hr := (List.mem_filter.mp hr).2
    rw [Bool.not_eq_true', List.contains_eq_mem, decide_eq_false_iff_not] at hr
    exact hr hl
  · simp only [completionPositions, List.mem_append, List.mem_filter, List.mem_range,
      Bool.not_eq_eq_eq_not, Bool.not_true, List.contains_eq_mem, decide_eq_false_iff_not]
    constructor
    · rintro (h | h)
      · exact hlt i h
      · exact h.1
    · intro h
      by_cases hm : i ∈ (completion.filter (fun i => decide (i < n))).dedup
      · exact .inl hm
      · exact .inr ⟨h, hm⟩

theorem completionOrder_eq (legs : List ScatterLeg) (completion : List Nat) :
    completionOrder legs completion =
      (completionPositions legs.length completion).filterMap fun i => legs[i]? := rfl

theorem partitionLegs_eq (endpoint : Option String) (leased : Bool) (legs : List ScatterLeg) :
    partitionLegs endpoint leased legs =
      match sessionPosition endpoint leased legs with
      | none => (none, legs)
      | some k => (legs[k]?, legs.eraseIdx k) := by
  induction legs with
  | nil => rfl
  | cons leg legs ih =>
      rw [partitionLegs, sessionPosition, List.findIdx?_cons]
      split
      · rfl
      · rw [ih, sessionPosition]
        cases legs.findIdx? _ <;> rfl

theorem partitionLegs_length (endpoint : Option String) (leased : Bool)
    (legs : List ScatterLeg) :
    (partitionLegs endpoint leased legs).1.toList.length +
      (partitionLegs endpoint leased legs).2.length = legs.length := by
  induction legs with
  | nil => rfl
  | cons leg legs ih =>
      rw [partitionLegs]
      split
      · exact Nat.add_comm _ _
      · exact congrArg (· + 1) ih

theorem partitionLegs_leased {endpoint : Option String} {leased : Bool} {legs : List ScatterLeg}
    {leg : ScatterLeg} (h : (partitionLegs endpoint leased legs).1 = some leg) :
    leased = true := by
  induction legs with
  | nil => simp [partitionLegs] at h
  | cons l legs ih =>
      rw [partitionLegs] at h
      split at h
      case isTrue hc =>
        exact (Bool.and_eq_true_iff.mp hc).1
      case isFalse => exact ih h

theorem completionOrder_perm (legs : List ScatterLeg) (completion : List Nat) :
    (completionOrder legs completion).Perm legs := by
  have hall : (List.range legs.length).filterMap (fun i => legs[i]?) = legs := by
    induction legs with
    | nil => rfl
    | cons leg legs ih =>
        rw [List.length_cons, List.range_succ_eq_map, List.filterMap_cons, List.filterMap_map]
        exact congrArg (leg :: ·) ih
  have h := (completionPositions_perm legs.length completion).filterMap fun i => legs[i]?
  rw [hall] at h
  exact h

/-- The order is that of the legs as `execute_scatter` runs them. -/
theorem gatherOrder_legs (endpoint : Option String) (leased : Bool) (legs : List ScatterLeg)
    (completion : List Nat) :
    (gatherOrder endpoint leased legs completion).filterMap (fun i => legs[i]?) =
      (partitionLegs endpoint leased legs).1.toList ++
        completionOrder (partitionLegs endpoint leased legs).2 completion := by
  rw [partitionLegs_eq, gatherOrder]
  cases hk : sessionPosition endpoint leased legs with
  | none => exact completionOrder_eq legs completion
  | some k =>
      have hlt : k < legs.length := (List.findIdx?_eq_some_iff_findIdx_eq.mp hk).1
      simp only [completionOrder_eq, List.length_eraseIdx_of_lt hlt, List.getElem?_eraseIdx]
      rw [List.filterMap_cons, List.getElem?_eq_getElem hlt, List.filterMap_map]
      simp only [Option.toList_some, List.singleton_append, List.cons.injEq, true_and]
      congr 1
      funext i
      simp only [Function.comp_apply]
      split <;> rfl

theorem gatherOrder_perm (endpoint : Option String) (leased : Bool) (legs : List ScatterLeg)
    (completion : List Nat) :
    (gatherOrder endpoint leased legs completion).Perm (List.range legs.length) := by
  rw [gatherOrder]
  cases hk : sessionPosition endpoint leased legs with
  | none => exact completionPositions_perm _ _
  | some k =>
      have hlt : k < legs.length := (List.findIdx?_eq_some_iff_findIdx_eq.mp hk).1
      have hperm := completionPositions_perm (legs.length - 1) completion
      refine (List.perm_ext_iff_of_nodup ?_ List.nodup_range).mpr fun i => ?_
      · refine List.nodup_cons.mpr ⟨?_, ?_⟩
        · simp only [List.mem_map, not_exists, not_and]
          intro i _
          split <;> omega
        · refine List.Nodup.map ?_ (hperm.nodup_iff.mpr List.nodup_range)
          intro i j h
          simp only at h
          split at h <;> split at h <;> omega
      · simp only [List.mem_cons, List.mem_map, hperm.mem_iff, List.mem_range]
        constructor
        · rintro (rfl | ⟨j, hj, rfl⟩)
          · exact hlt
          · split <;> omega
        · intro hi
          rcases Nat.lt_trichotomy i k with h | h | h
          · exact .inr ⟨i, by omega, if_pos h⟩
          · exact .inl h
          · exact .inr ⟨i - 1, by omega, by rw [if_neg (by omega)]; omega⟩

/-! ## Gathering -/

/-- A scatter whose legs have all completed without an error. -/
structure Gathered (σ κ : Type) where
  /-- The session after its own leg. -/
  session : Session σ κ
  /-- Positions of the legs in gather order. -/
  order : List Nat
  /-- The legs' messages in gather order. -/
  answers : List (List BackendMessage)
  /-- The pooled legs. -/
  outcomes : List (LegOutcome σ)

namespace Gathered

/-- What the merge reads. -/
def sources (g : Gathered σ κ) : List BackendMessage := g.answers.flatten

/-- The answer of the leg at position `i` of the request. -/
def answer (g : Gathered σ κ) (i : Nat) : List BackendMessage :=
  (g.answers[g.order.idxOf i]?).getD []

/-- The legs' messages in request order. -/
def requested (g : Gathered σ κ) : List BackendMessage :=
  (List.range g.order.length).flatMap g.answer

/-- The leg at position `i` of the request has returned rows. -/
def yields (g : Gathered σ κ) (i : Nat) : Bool := !(dataRows (g.answer i)).isEmpty

end Gathered

/-- `execute_scatter` up to the merge. `none` when it leaves before. -/
def Session.gather (env : Env σ) (s : Session σ κ) (request : ScatterRequest) (t : Timing) :
    Option (Gathered σ κ) :=
  match request.legs.find? fun leg => (env.route.endpoint leg.endpoint).isNone with
  | some _ => none
  | none =>
      let key := fun leg : ScatterLeg => env.poolKey s.params leg.endpoint
      let parts := partitionLegs s.currentEndpoint s.lease.isSome request.legs
      let ran := runLegs env.upstream key s.startupParameters
        (completionOrder parts.2 t.completion)
        { world := s.world, outcomes := [], firstError := none, aborted := [] }
      let order := gatherOrder s.currentEndpoint s.lease.isSome request.legs t.completion
      match ran.firstError with
      | some _ => none
      | none =>
          let sess := { s with world := ran.world }.runSessionLeg env parts.1
          match sess.2 with
          | none => some {
              session := sess.1
              order := order
              answers := ran.outcomes.map LegOutcome.messages
              outcomes := ran.outcomes }
          | some r =>
              if r.broken then none
              else
                match r.error with
                | some _ => none
                | none => some {
                    session := sess.1
                    order := order
                    answers := r.messages :: ran.outcomes.map LegOutcome.messages
                    outcomes := ran.outcomes }

theorem collectReply_rows (ms : List (Origin × BackendMessage)) (r : Collected σ)
    (h : r.rows = (dataRows r.messages).length) :
    (collectReply ms r).rows = (dataRows (collectReply ms r).messages).length := by
  induction ms generalizing r with
  | nil => exact h
  | cons p ms ih =>
      obtain ⟨o, m⟩ := p
      cases m with
      | readyForQuery status => exact h
      | parameterStatus name value => exact ih _ h
      | errorResponse info => exact ih _ h
      | _ =>
          refine ih _ ?_
          rw [dataRows_append, List.length_append, h]
          rfl

theorem runQueryCollect_rows (u : Upstream σ) (c : Conn σ) (sql : String) :
    (runQueryCollect u c sql).rows = (dataRows (runQueryCollect u c sql).messages).length :=
  collectReply_rows _ _ rfl

theorem runLegPooled_rows (u : Upstream σ) (w : World σ) (key : PoolKey) (leg : ScatterLeg)
    (startup : Params) :
    (runLegPooled u w key leg startup).2.rows =
      (dataRows (runLegPooled u w key leg startup).2.messages).length := by
  unfold runLegPooled
  split
  · rfl
  · split
    · rfl
    · dsimp only
      split <;> exact runQueryCollect_rows _ _ _

theorem runLegPooled_endpoint (u : Upstream σ) (w : World σ) (key : PoolKey) (leg : ScatterLeg)
    (startup : Params) : (runLegPooled u w key leg startup).2.endpoint = leg.endpoint := by
  unfold runLegPooled
  split
  · rfl
  · split
    · rfl
    · dsimp only
      split <;> rfl

/-- When no leg fails, each leg has its outcome, in the order in which they complete. -/
theorem runLegs_endpoints {u : Upstream σ} {key : ScatterLeg → PoolKey} {startup : Params}
    (legs : List ScatterLeg) (r : LegsRun σ)
    (h : (runLegs u key startup legs r).firstError = none) :
    (runLegs u key startup legs r).outcomes.map LegOutcome.endpoint =
      r.outcomes.map LegOutcome.endpoint ++ legs.map ScatterLeg.endpoint := by
  induction legs generalizing r with
  | nil => simp [runLegs]
  | cons leg legs ih =>
      rw [runLegs] at h ⊢
      split at h
      case isTrue => simp at h
      case isFalse hc =>
        rw [if_neg hc, ih _ h]
        simp [runLegPooled_endpoint]

theorem runLegs_rows (u : Upstream σ) (key : ScatterLeg → PoolKey) (startup : Params)
    (legs : List ScatterLeg) (r : LegsRun σ)
    (h : ∀ o ∈ r.outcomes, o.rows = (dataRows o.messages).length) :
    ∀ o ∈ (runLegs u key startup legs r).outcomes, o.rows = (dataRows o.messages).length := by
  induction legs generalizing r with
  | nil => exact h
  | cons leg legs ih =>
      rw [runLegs]
      split
      · exact h
      · refine ih _ fun o hmem => ?_
        rcases List.mem_append.mp hmem with hmem | hmem
        · exact h o hmem
        · rw [List.mem_singleton.mp hmem]
          exact runLegPooled_rows _ _ _ _ _

/-- The rows that are counted are those of the messages. -/
theorem sum_rows (outcomes : List (LegOutcome σ))
    (h : ∀ o ∈ outcomes, o.rows = (dataRows o.messages).length) :
    (outcomes.map LegOutcome.rows).sum =
      (dataRows (outcomes.map LegOutcome.messages).flatten).length := by
  induction outcomes with
  | nil => rfl
  | cons o outcomes ih =>
      rw [List.map_cons, List.sum_cons, List.map_cons, List.flatten_cons, dataRows_append,
        List.length_append, h o List.mem_cons_self,
        ih fun o' hm => h o' (List.mem_cons_of_mem _ hm)]

namespace Session

variable {env : Env σ} {s : Session σ κ} {request : ScatterRequest} {t : Timing}

/-- A scatter whose legs have all completed is the merge of what they answered. -/
theorem executeScatter_gather {g : Gathered σ κ} (h : s.gather env request t = some g) :
    s.executeScatter env request t =
      g.session.writeMerged env request g.sources (dataRows g.sources).length g.outcomes := by
  unfold gather at h
  split at h
  case h_1 => simp at h
  case h_2 hknown =>
    dsimp only at h
    have hrows := runLegs_rows env.upstream
      (fun leg : ScatterLeg => env.poolKey s.params leg.endpoint) s.startupParameters
      (completionOrder (partitionLegs s.currentEndpoint s.lease.isSome request.legs).2
        t.completion)
      { world := s.world, outcomes := [], firstError := none, aborted := [] } (by simp)
    have hsum := sum_rows _ hrows
    split at h
    case h_1 => simp at h
    case h_2 hf =>
      split at h
      case h_1 hr =>
        rw [Option.some.injEq] at h
        subst h
        unfold executeScatter
        simp only [hknown, hf, hr, Gathered.sources, List.flatMap_def, hsum]
      case h_2 r hr =>
        have hrr : r.rows = (dataRows r.messages).length := by
          unfold runSessionLeg at hr
          split at hr
          · rw [← Option.some.inj hr]
            exact runQueryCollect_rows _ _ _
          · simp at hr
        split at h
        case isTrue => simp at h
        case isFalse hb =>
          split at h
          case h_1 => simp at h
          case h_2 he =>
            rw [Option.some.injEq] at h
            subst h
            unfold executeScatter
            simp only [hknown, hf, hr, if_neg hb, he, Gathered.sources, List.flatMap_def, hsum,
              List.flatten_cons, dataRows_append, List.length_append, hrr]

/-- A scatter that succeeds has gathered all its legs. -/
theorem gather_of_ok {rows : Nat} (h : (s.executeScatter env request t).2 = .ok rows) :
    ∃ g, s.gather env request t = some g := by
  unfold executeScatter at h
  split at h
  case h_1 => simp at h
  case h_2 hknown =>
    dsimp only at h
    split at h
    case h_1 => simp at h
    case h_2 hf =>
      split at h
      case h_1 hr =>
        unfold gather
        simp only [hknown, hf, hr]
        exact ⟨_, rfl⟩
      case h_2 r hr =>
        split at h
        case isTrue => simp at h
        case isFalse hb =>
          split at h
          case h_1 => simp at h
          case h_2 he =>
            unfold gather
            simp only [hknown, hf, hr, if_neg hb, he]
            exact ⟨_, rfl⟩

/-- How many messages the client still takes makes no difference before the merge. -/
theorem gather_sends (env : Env σ) (s : Session σ κ) (request : ScatterRequest) (t : Timing)
    (n : Nat) :
    ({ s with sendsLeft := n } : Session σ κ).gather env request t =
      (s.gather env request t).map fun g =>
        { g with session := { g.session with sendsLeft := n } } := by
  unfold gather
  split
  · rfl
  · dsimp only
    split
    · rfl
    · unfold runSessionLeg
      cases (partitionLegs s.currentEndpoint s.lease.isSome request.legs).1 with
      | none => rfl
      | some leg =>
          cases s.lease with
          | none => rfl
          | some lease =>
              dsimp only
              split
              · rfl
              · split <;> rfl

/-- The answers are gathered in `gatherOrder`, one for each leg. -/
theorem gather_order {g : Gathered σ κ} (h : s.gather env request t = some g) :
    g.order = gatherOrder s.currentEndpoint s.lease.isSome request.legs t.completion ∧
      g.answers.length = request.legs.length := by
  have hlen := partitionLegs_length s.currentEndpoint s.lease.isSome request.legs
  unfold gather at h
  split at h
  · simp at h
  · dsimp only at h
    generalize hparts : partitionLegs s.currentEndpoint s.lease.isSome request.legs = parts
      at h hlen
    split at h
    case h_1 => simp at h
    case h_2 hf =>
      have hends := congrArg List.length (runLegs_endpoints _ _ hf)
      simp only [List.length_map, List.map_nil, List.nil_append,
        (completionOrder_perm _ t.completion).length_eq] at hends
      unfold runSessionLeg at h
      obtain ⟨leg, pooled⟩ := parts
      cases leg with
      | none =>
          simp only [Option.some.injEq] at h
          subst h
          refine ⟨rfl, ?_⟩
          rw [List.length_map, hends, ← hlen]
          exact (Nat.zero_add _).symm
      | some leg =>
          have hleg := congrArg Prod.fst hparts
          obtain ⟨lease, hl⟩ := Option.isSome_iff_exists.mp (partitionLegs_leased hleg)
          simp only [hl] at h
          split at h
          · simp at h
          · split at h
            · simp at h
            · rw [Option.some.injEq] at h
              subst h
              refine ⟨by rw [hl], ?_⟩
              rw [List.length_cons, List.length_map, hends, ← hlen]
              exact Nat.add_comm _ _

end Session

namespace Gathered

/-- The legs in gather order, each with its answer. -/
theorem answers_eq (g : Gathered σ κ) (hn : g.order.Nodup)
    (hl : g.answers.length = g.order.length) : g.answers = g.order.map g.answer := by
  refine List.ext_getElem (by rw [List.length_map, hl]) fun i hi _ => ?_
  rw [List.getElem_map, answer, hn.idxOf_getElem, List.getElem?_eq_getElem hi]
  rfl

/-- The answers in request order are those that were gathered. -/
theorem requested_perm {g : Gathered σ κ} (hp : g.order.Perm (List.range g.order.length))
    (hl : g.answers.length = g.order.length) :
    (dataRows g.sources).Perm (dataRows g.requested) := by
  have hn : g.order.Nodup := hp.nodup_iff.mpr List.nodup_range
  rw [sources, g.answers_eq hn hl, requested, List.flatMap_def]
  exact ((hp.map g.answer).flatten).filterMap _

/-- Legs without rows make no difference to the rows. -/
theorem flatMap_yields (g : Gathered σ κ) (positions : List Nat) :
    dataRows (positions.flatMap g.answer) =
      (positions.filter g.yields).flatMap fun i => dataRows (g.answer i) := by
  have hflat : dataRows (positions.flatMap g.answer) =
      positions.flatMap fun i => dataRows (g.answer i) := List.filterMap_flatMap
  rw [hflat]
  induction positions with
  | nil => rfl
  | cons i positions ih =>
      have hrest := ih List.filterMap_flatMap
      rw [List.flatMap_cons, hrest, List.filter_cons]
      cases hi : g.yields i with
      | true => rw [if_pos rfl, List.flatMap_cons]
      | false =>
          have hnone : dataRows (g.answer i) = [] := by simpa [yields] using hi
          rw [hnone, if_neg Bool.false_ne_true, List.nil_append]

/-- Legs with rows that are gathered in request order give the rows in request order. -/
theorem dataRows_sources {g : Gathered σ κ} (hp : g.order.Perm (List.range g.order.length))
    (hl : g.answers.length = g.order.length)
    (hsorted : (g.order.filter g.yields).Pairwise (· < ·)) :
    dataRows g.sources = dataRows g.requested := by
  have hn : g.order.Nodup := hp.nodup_iff.mpr List.nodup_range
  have hsame : g.order.filter g.yields = (List.range g.order.length).filter g.yields :=
    List.Perm.eq_of_pairwise (fun a b _ _ hab hba => absurd hab (Nat.lt_asymm hba)) hsorted
      (List.pairwise_lt_range.filter _) (hp.filter _)
  rw [sources, g.answers_eq hn hl, requested, ← List.flatMap_def, flatMap_yields, flatMap_yields,
    hsame]

end Gathered

end Pgferry
